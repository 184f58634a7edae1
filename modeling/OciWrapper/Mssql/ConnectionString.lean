import OciWrapper.Markup.Attributes
import OciWrapper.Text.Numerals

namespace OciWrapper.Mssql

open OciWrapper.Text OciWrapper.Markup

/-- What the connection string is made of. -/
structure ConnectionConfig where
  mssqlServer : CString
  mssqlPort : Int
  dbname : CString
  username : CString
  password : CString
  mssqlTrustServerCertificate : Bool

/-- `MSSQL_ODBC_DRIVER`. -/
def mssqlOdbcDriver : CString := "ODBC Driver 18 for SQL Server".toList

section Appending

variable (outSize : Nat)

/-- `put_text`, with its format filled in. -/
def putText (out text : CString) : Option CString :=
  if text.length ≥ outSize - out.length then none else some (out ++ text)

/-- The loop of `put_braced`. -/
def putBracedChars : CString → CString → Option CString
  | out, [] => some out
  | out, c :: value =>
    if out.length + (if c = '\x7d' then 2 else 1) + 1 ≥ outSize then none
    else putBracedChars (if c = '\x7d' then out ++ [c, '\x7d'] else out ++ [c]) value

def putBraced (out value : CString) : Option CString :=
  if out.length + 1 ≥ outSize then none
  else
    match putBracedChars outSize (out ++ ['\x7b']) value with
    | none => none
    | some out => if out.length + 1 ≥ outSize then none else some (out ++ ['\x7d'])

def serverPort (ini : ConnectionConfig) : Int := if ini.mssqlPort > 0 then ini.mssqlPort else 1433

def mssqlConnectionString (ini : ConnectionConfig) (maskPassword : Bool) : Option CString := do
  if outSize = 0 then none
  else
    let out ← putText outSize [] ("Driver=\x7b".toList ++ mssqlOdbcDriver ++
      "\x7d;Server=tcp:".toList ++ ini.mssqlServer ++ ",".toList ++ decimal (serverPort ini) ++
      ";Database=".toList)
    let out ← putBraced outSize out ini.dbname
    let out ← putText outSize out ";UID=".toList
    let out ← putBraced outSize out ini.username
    let out ← putText outSize out ";PWD=".toList
    let out ← if maskPassword then putText outSize out "***".toList
      else putBraced outSize out ini.password
    putText outSize out (";Encrypt=yes;TrustServerCertificate=".toList ++
      (if ini.mssqlTrustServerCertificate then "yes".toList else "no".toList) ++
      ";APP=DataSol_Gateway;".toList)

/-- A piece is appended whole or not at all. -/
def appendFits (out piece : CString) : Option CString :=
  if (out ++ piece).length < outSize then some (out ++ piece) else none

variable {outSize}

theorem putText_eq (out text : CString) : putText outSize out text = appendFits outSize out text := by
  rw [putText, appendFits, List.length_append]
  by_cases fits : out.length + text.length < outSize
  · rw [if_pos fits, if_neg (by omega)]
  · rw [if_neg fits, if_pos (by omega)]

theorem putBracedChars_closed (out value : CString) :
    ((putBracedChars outSize out value).bind fun out =>
      if out.length + 1 ≥ outSize then none else some (out ++ ['\x7d'])) =
      appendFits outSize out (value.flatMap doubledBrace ++ ['\x7d']) := by
  induction value generalizing out with
  | nil =>
    rw [putBracedChars, Option.bind_some, appendFits, List.flatMap_nil, List.nil_append,
      List.length_append, List.length_singleton]
    by_cases fits : out.length + 1 < outSize
    · rw [if_pos fits, if_neg (by omega)]
    · rw [if_neg fits, if_pos (by omega)]
  | cons c value ih =>
    have grown : (if c = '\x7d' then out ++ [c, '\x7d'] else out ++ [c]) = out ++ doubledBrace c := by
      rw [doubledBrace]
      split
      · next brace => rw [brace]
      · rfl
    have need : (if c = '\x7d' then 2 else 1) = (doubledBrace c).length := by
      rw [doubledBrace]
      split <;> rfl
    rw [putBracedChars, grown, need, List.flatMap_cons, List.append_assoc]
    by_cases room : out.length + (doubledBrace c).length + 1 < outSize
    · rw [if_neg (by omega), ih]
      simp only [appendFits, List.append_assoc]
    · rw [if_pos (by omega), Option.bind_none, appendFits, if_neg]
      simp only [List.length_append, List.length_singleton]
      omega

theorem putBraced_eq (out value : CString) :
    putBraced outSize out value = appendFits outSize out (bracedValue value) := by
  have closed := @putBracedChars_closed outSize (out ++ ['\x7b']) value
  rw [putBraced]
  by_cases room : out.length + 1 < outSize
  · rw [if_neg (by omega)]
    have joined : appendFits outSize (out ++ ['\x7b']) (value.flatMap doubledBrace ++ ['\x7d']) =
        appendFits outSize out (bracedValue value) := by
      simp only [appendFits, bracedValue, List.append_assoc, List.singleton_append]
      rfl
    rw [← joined, ← closed]
    cases putBracedChars outSize (out ++ ['\x7b']) value <;> rfl
  · rw [if_pos (by omega), appendFits, if_neg]
    simp only [bracedValue, List.length_append, List.length_cons]
    omega

theorem appendFits_bind (out first second : CString) :
    ((appendFits outSize out first).bind fun out => appendFits outSize out second) =
      appendFits outSize out (first ++ second) := by
  by_cases fits : (out ++ first).length < outSize
  · rw [appendFits, if_pos fits, Option.bind_some]
    simp only [appendFits, List.append_assoc]
  · rw [appendFits, if_neg fits, Option.bind_none, appendFits, if_neg]
    simp only [List.length_append] at fits ⊢
    omega

end Appending

/-- The value of `PWD` as it stands in the string. -/
def passwordValue (ini : ConnectionConfig) (maskPassword : Bool) : CString :=
  if maskPassword then "***".toList else bracedValue ini.password

def serverValue (ini : ConnectionConfig) : CString :=
  "tcp:".toList ++ ini.mssqlServer ++ ",".toList ++ decimal (serverPort ini)

def trustValue (ini : ConnectionConfig) : CString :=
  if ini.mssqlTrustServerCertificate then "yes".toList else "no".toList

/-- The string as a list of pairs. -/
def connectionText (ini : ConnectionConfig) (maskPassword : Bool) : CString :=
  bracedPair "Driver".toList mssqlOdbcDriver ++ (barePair "Server".toList (serverValue ini) ++
    (bracedPair "Database".toList ini.dbname ++ (bracedPair "UID".toList ini.username ++
      (barePair "PWD".toList (passwordValue ini maskPassword) ++ (barePair "Encrypt".toList "yes".toList ++
        (barePair "TrustServerCertificate".toList (trustValue ini) ++
          barePair "APP".toList "DataSol_Gateway".toList))))))

/-- What the driver is to read. -/
def connectionPairs (ini : ConnectionConfig) (maskPassword : Bool) : List (CString × CString) :=
  [("Driver".toList, mssqlOdbcDriver), ("Server".toList, serverValue ini),
    ("Database".toList, ini.dbname), ("UID".toList, ini.username),
    ("PWD".toList, if maskPassword then "***".toList else ini.password),
    ("Encrypt".toList, "yes".toList), ("TrustServerCertificate".toList, trustValue ini),
    ("APP".toList, "DataSol_Gateway".toList)]

section Joining

/-- The pieces that the code appends, as pairs. -/
theorem pieces_joined {driver server port database username password yes text₁ text₂ text₃ text₄
    text₅ text₆ text₇ text₈ name₁ name₂ name₃ name₄ name₅ name₆ name₇ tcp trust last : CString}
    (first : text₁ = name₁ ++ ['=', '\x7b'])
    (second : text₂ = '\x7d' :: ';' :: (name₂ ++ '=' :: tcp))
    (third : text₄ = ';' :: (name₃ ++ ['=']))
    (fourth : text₅ = ';' :: (name₄ ++ ['=']))
    (fifth : text₆ = ';' :: (name₅ ++ ['=']))
    (sixth : text₇ = ';' :: (name₆ ++ '=' :: (yes ++ ';' :: (name₇ ++ ['=']))))
    (seventh : text₈ = ';' :: last) :
    (text₁ ++ driver ++ text₂ ++ server ++ text₃ ++ port ++ text₄) ++ (database ++ (text₅ ++
      (username ++ (text₆ ++ (password ++ (text₇ ++ trust ++ text₈)))))) =
      (name₁ ++ '=' :: ('\x7b' :: (driver ++ ['\x7d']) ++ [';'])) ++
        (barePair name₂ (tcp ++ server ++ text₃ ++ port) ++
          ((name₃ ++ '=' :: (database ++ [';'])) ++ ((name₄ ++ '=' :: (username ++ [';'])) ++
            ((name₅ ++ '=' :: (password ++ [';'])) ++ (barePair name₆ yes ++
              (barePair name₇ trust ++ last)))))) := by
  subst first second third fourth fifth sixth seventh
  simp only [barePair, List.append_assoc, List.cons_append, List.nil_append]

variable (ini : ConnectionConfig) (maskPassword : Bool)

/-- The string is built when it fits, and then it is this text. -/
theorem mssqlConnectionString_eq (outSize : Nat) :
    mssqlConnectionString outSize ini maskPassword =
      appendFits outSize [] (connectionText ini maskPassword) := by
  by_cases empty : outSize = 0
  · rw [mssqlConnectionString, if_pos empty, appendFits, if_neg]
    omega
  · rw [mssqlConnectionString, if_neg empty]
    cases maskPassword <;>
      simp only [putText_eq, putBraced_eq, Option.bind_eq_bind, appendFits_bind, if_true,
        Bool.false_eq_true, if_false] <;>
      apply congrArg <;> apply pieces_joined <;> rfl

end Joining

section Reading

variable {ini : ConnectionConfig} {maskPassword : Bool}

theorem semicolon_not_mem_decimal (n : Int) : ';' ∉ decimal n := by
  have digits : ';' ∉ Nat.toDigits 10 n.natAbs := by
    intro member
    have digit := Nat.isDigit_of_mem_toDigits (by omega) (by omega) member
    cases digit
  rw [decimal]
  split
  · rw [List.mem_cons, not_or]
    exact ⟨by decide, digits⟩
  · exact digits

def pairNames : List CString :=
  ["Driver".toList, "Server".toList, "Database".toList, "UID".toList, "PWD".toList,
    "Encrypt".toList, "TrustServerCertificate".toList, "APP".toList]

theorem pairNames_named {name : CString} (known : name ∈ pairNames) : PairName name := by
  have all : pairNames.all (fun name => decide (PairName name)) = true := by decide +kernel
  exact of_decide_eq_true (List.all_eq_true.mp all name known)

theorem reads_server {address : CString} (plain : ';' ∉ address) :
    ReadsPairs (barePair "Server".toList ("tcp:".toList ++ address))
      [("Server".toList, "tcp:".toList ++ address)] := by
  have noEnd : ';' ∉ "cp:".toList ++ address := by
    rw [List.mem_append, not_or]
    exact ⟨by decide, plain⟩
  have named := @pairNames_named "Server".toList (by simp [pairNames])
  exact @run_barePair "Server".toList ("cp:".toList ++ address) 't' named (by decide) (by decide) noEnd

theorem reads_password : ReadsPairs (barePair "PWD".toList (passwordValue ini maskPassword))
    [("PWD".toList, if maskPassword then "***".toList else ini.password)] := by
  have named := @pairNames_named "PWD".toList (by simp [pairNames])
  cases maskPassword
  · exact run_bracedPair named ini.password
  · exact @run_barePair "PWD".toList "**".toList '*' named (by decide) (by decide) (by decide)

theorem reads_trust :
    ReadsPairs (barePair "TrustServerCertificate".toList (trustValue ini))
      [("TrustServerCertificate".toList, trustValue ini)] := by
  have named := @pairNames_named "TrustServerCertificate".toList (by simp [pairNames])
  rw [trustValue]
  split
  · exact @run_barePair _ "es".toList 'y' named (by decide) (by decide) (by decide)
  · exact @run_barePair _ "o".toList 'n' named (by decide) (by decide) (by decide)

theorem reads_connectionText (plain : ';' ∉ ini.mssqlServer) :
    ReadsPairs (connectionText ini maskPassword) (connectionPairs ini maskPassword) := by
  have address : ';' ∉ ini.mssqlServer ++ ",".toList ++ decimal (serverPort ini) := by
    simp only [List.mem_append, not_or]
    exact ⟨⟨plain, by decide⟩, semicolon_not_mem_decimal _⟩
  have server : ReadsPairs (barePair "Server".toList (serverValue ini))
      [("Server".toList, serverValue ini)] := by
    have read := reads_server address
    rwa [← List.append_assoc, ← List.append_assoc] at read
  have driver := run_bracedPair (@pairNames_named "Driver".toList (by simp [pairNames]))
    mssqlOdbcDriver
  have database := run_bracedPair (@pairNames_named "Database".toList (by simp [pairNames]))
    ini.dbname
  have user := run_bracedPair (@pairNames_named "UID".toList (by simp [pairNames])) ini.username
  have encrypt := @run_barePair "Encrypt".toList "es".toList 'y'
    (pairNames_named (by simp [pairNames])) (by decide) (by decide) (by decide)
  have app := @run_barePair "APP".toList "ataSol_Gateway".toList 'D'
    (pairNames_named (by simp [pairNames])) (by decide) (by decide) (by decide)
  exact driver.append (server.append (database.append (user.append (reads_password.append
    (encrypt.append (reads_trust.append app))))))

/-- A semicolon in the server's name ends the value of its pair. -/
theorem server_cut (broken : ';' ∈ ini.mssqlServer) :
    ¬ReadsPairs (connectionText ini maskPassword) (connectionPairs ini maskPassword) := by
  intro read
  rcases List.eq_append_cons_of_mem broken with ⟨front, rest, server, plain⟩
  have driver := run_bracedPair (@pairNames_named "Driver".toList (by simp [pairNames]))
    mssqlOdbcDriver
  have before := driver.append (reads_server plain)
  have split : ∃ later, connectionText ini maskPassword =
      (bracedPair "Driver".toList mssqlOdbcDriver ++
        barePair "Server".toList ("tcp:".toList ++ front)) ++ later := by
    simp only [connectionText, serverValue, server, barePair, List.append_assoc, List.cons_append,
      List.nil_append]
    exact ⟨_, rfl⟩
  rcases split with ⟨later, text⟩
  rw [ReadsPairs, text, run_append_of before, Option.map_eq_some_iff] at read
  rcases read with ⟨⟨last, more⟩, -, same⟩
  have pairs : [("Driver".toList, mssqlOdbcDriver), ("Server".toList, "tcp:".toList ++ front)] ++
      more = connectionPairs ini maskPassword := congrArg Prod.snd same
  have second := congrArg (fun pairs => (pairs.map (·.2.length))[1]?) pairs
  simp [connectionPairs, serverValue, server] at second

end Reading

/-- The string is built exactly when it fits the buffer, and the driver reads the configuration
back from it, whatever the database's name, the user and the password are, exactly when the server's
name has no semicolon. -/
theorem connection_string_reads_iff (ini : ConnectionConfig) (maskPassword : Bool) (outSize : Nat) :
    ((mssqlConnectionString outSize ini maskPassword).isSome ↔
      (connectionText ini maskPassword).length < outSize) ∧
    ∀ out, mssqlConnectionString outSize ini maskPassword = some out →
      (ReadsPairs out (connectionPairs ini maskPassword) ↔ ';' ∉ ini.mssqlServer) := by
  rw [mssqlConnectionString_eq, appendFits, List.nil_append]
  by_cases fits : (connectionText ini maskPassword).length < outSize
  · rw [if_pos fits]
    constructor
    · exact iff_of_true rfl fits
    · rintro out ⟨⟩
      constructor
      · intro read broken
        exact server_cut broken read
      · exact reads_connectionText
  · rw [if_neg fits]
    constructor
    · exact iff_of_false (by decide) fits
    · rintro out ⟨⟩

end OciWrapper.Mssql

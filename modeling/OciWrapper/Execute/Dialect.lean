import OciWrapper.Text.Lexical

namespace OciWrapper.Execute

open OciWrapper.Text

def singleQuote : Mark := ⟨'\'', rfl, rfl⟩
def doubleQuote : Mark := ⟨'"', rfl, rfl⟩
def closeBracket : Mark := ⟨']', rfl, rfl⟩

/-- String literals and quoted identifiers as Oracle reads them. -/
def oracleQuoting : Quoting where
  closer := fun c => if c = '\'' then some singleQuote else if c = '"' then some doubleQuote else none
  nested := false
  opener_plain := by
    intro c opener
    split at opener
    · rename_i same
      subst same
      exact ⟨rfl, rfl⟩
    · split at opener
      · rename_i same
        subst same
        exact ⟨rfl, rfl⟩
      · exact absurd rfl opener

/-- The quoting rules `mssql_sql_shape` scans by; T-SQL block comments nest. -/
def mssqlQuoting : Quoting where
  closer := fun c => if c = '[' then some closeBracket else oracleQuoting.closer c
  nested := true
  opener_plain := by
    intro c opener
    split at opener
    · rename_i same
      subst same
      exact ⟨rfl, rfl⟩
    · exact oracleQuoting.opener_plain c opener

end OciWrapper.Execute

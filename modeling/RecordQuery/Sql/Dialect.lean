import RecordQuery.Page
import RecordQuery.Text.Blank

/-!
# SQL dialects

The two dialects statements are written in differ in the paging clause, in how the key of an
inserted row is returned and in how many parameters a statement may bind.
-/

namespace RecordQuery

inductive Dialect where
  /-- Pages are `OFFSET … ROWS FETCH NEXT … ROWS ONLY`, keys `OUTPUT INSERTED`. -/
  | sqlServer
  /-- Pages are `LIMIT … OFFSET …`, keys `RETURNING`. -/
  | sqlite
  deriving DecidableEq, Repr

namespace Dialect

def name : Dialect → String
  | sqlServer => "sqlserver"
  | sqlite => "sqlite"

/-- The most parameters one statement may bind. -/
def maxParameters : Dialect → Nat
  | sqlServer => 2000
  | sqlite => 32766

/-- The dialect of a name in letters of either case, or a message. -/
def parse (s : String) : Except String Dialect :=
  let word := Text.lower s
  if word == "sqlserver" || word == "mssql" || word == "tsql" then .ok sqlServer
  else if word == "sqlite" || word == "sqlite3" then .ok sqlite
  else .error ("Invalid SQL dialect: '" ++ s ++ "'")

/-- The paging clause of a window. -/
def paging (d : Dialect) (w : Window) : String :=
  let skip := Number.natText w.skip.toNat
  match d, w.take with
  | sqlServer, none => " OFFSET " ++ skip ++ " ROWS"
  | sqlServer, some t =>
    " OFFSET " ++ skip ++ " ROWS FETCH NEXT " ++ Number.natText t.toNat ++ " ROWS ONLY"
  | sqlite, none => " LIMIT -1 OFFSET " ++ skip
  | sqlite, some t => " LIMIT " ++ Number.natText t.toNat ++ " OFFSET " ++ skip

def other : Dialect → Dialect
  | sqlServer => sqlite
  | sqlite => sqlServer

end Dialect

end RecordQuery

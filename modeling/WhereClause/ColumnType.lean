import WhereClause.Text.Blank
import WhereClause.Text.Capital

/-!
# ColumnType: the types a column may have, and the names they go by

Each type has one canonical name, under which it is written, and is read under that name and the common names of MySQL and
PostgreSQL. A name is read word by word: letter case does not matter, white space around the words does not, and what stands
from the first opening parenthesis on (a length, a precision) does not either.
-/

namespace WhereClause

/-- The type of a column. -/
inductive ColumnType where
  | boolean | short | int | long | float | double | decimal | char | varChar | string | uuid | json | bytea | date | time
  | timestamp | null
  deriving DecidableEq

/-- The canonical name of a type. -/
def ColumnType.sqlName : ColumnType → String
  | .boolean => "BOOLEAN"
  | .short => "SMALLINT"
  | .int => "INTEGER"
  | .long => "BIGINT"
  | .float => "REAL"
  | .double => "DOUBLE PRECISION"
  | .decimal => "DECIMAL"
  | .char => "CHAR"
  | .varChar => "VARCHAR"
  | .string => "TEXT"
  | .uuid => "UUID"
  | .json => "JSON"
  | .bytea => "BYTEA"
  | .date => "DATE"
  | .time => "TIME"
  | .timestamp => "TIMESTAMP"
  | .null => "NULL"

/-- Every name a type goes by, in capitals, its words separated by single spaces. -/
def ColumnType.names : List (String × ColumnType) :=
  [("BOOLEAN", .boolean), ("BOOL", .boolean),
   ("TINYINT", .short), ("SMALLINT", .short), ("INT2", .short),
   ("MEDIUMINT", .int), ("INT", .int), ("INTEGER", .int), ("INT4", .int), ("SERIAL", .int),
   ("BIGINT", .long), ("INT8", .long), ("BIGSERIAL", .long),
   ("FLOAT", .float), ("FLOAT4", .float), ("REAL", .float),
   ("DOUBLE", .double), ("FLOAT8", .double), ("DOUBLE PRECISION", .double),
   ("DECIMAL", .decimal), ("NUMERIC", .decimal),
   ("CHAR", .char), ("CHARACTER", .char), ("BPCHAR", .char),
   ("VARCHAR", .varChar), ("CHARACTER VARYING", .varChar),
   ("TEXT", .string), ("TINYTEXT", .string), ("MEDIUMTEXT", .string), ("LONGTEXT", .string), ("NAME", .string),
   ("UUID", .uuid),
   ("JSON", .json), ("JSONB", .json),
   ("BYTEA", .bytea), ("BLOB", .bytea), ("BINARY", .bytea), ("VARBINARY", .bytea),
   ("DATE", .date),
   ("TIME", .time), ("TIMETZ", .time), ("TIME WITH TIME ZONE", .time), ("TIME WITHOUT TIME ZONE", .time),
   ("TIMESTAMP", .timestamp), ("DATETIME", .timestamp), ("TIMESTAMPTZ", .timestamp),
   ("TIMESTAMP WITH TIME ZONE", .timestamp), ("TIMESTAMP WITHOUT TIME ZONE", .timestamp),
   ("NULL", .null)]

/-- The words of a type name that decide which type it names: those before the first opening parenthesis. -/
def ColumnType.words (name : String) : List (List Char) := Text.words (name.toList.takeWhile (· != '('))

/-- The form under which a type name is looked up: its words, separated by single spaces, in capitals. -/
def ColumnType.normalForm (name : String) : List Char :=
  Text.capitals (List.intercalate [' '] (ColumnType.words name))

/-- The type that a name names, if it names one. -/
def ColumnType.ofName? (name : String) : Option ColumnType :=
  (ColumnType.names.find? fun entry => entry.1.toList == ColumnType.normalForm name).map (·.2)

/-- Every type is found under its canonical name. -/
theorem ColumnType.ofName?_sqlName (t : ColumnType) : ColumnType.ofName? t.sqlName = some t := by
  cases t <;> decide +kernel

end WhereClause

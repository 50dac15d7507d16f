import SqlScan.Literal
import SqlScan.Text.Classes
import SqlScan.Text.Offset

/-!
# Words

A word begins with a letter or an underscore and runs on over letters, numbers and underscores. It
is read to its end before anything is made of it, so a keyword is never found inside a longer word.

A word is reserved whatever the case of its ASCII letters. No other letters are folded, so a word that
would only become reserved under a wider case mapping stays a name. A keyword is named here as it is
spelled. A scanner looks keywords up in a table that has a key in capitals for each of them. Two
shortcuts come first: a word of more bytes than any key is in no table, nor is one with a character
that is not ASCII.
-/

namespace SqlScan

inductive Keyword where
  | SELECT | FROM | WHERE
  | BETWEEN | DISTINCT | LIKE | IN
  | GROUP | BY | ORDER | HAVING
  | JOIN | INNER | LEFT | RIGHT | FULL | OUTER | CROSS | ON | USING
  | AND | OR | NOT
  | LIMIT | OFFSET | TOP | FETCH
  | MIN | MAX | COUNT | SUM | AVG
  | INT | INTEGER | TINYINT | SMALLINT | MEDIUMINT | BIGINT | INT2 | INT4 | INT8
  | FLOAT | FLOAT4 | FLOAT8 | FLOAT32 | FLOAT64 | DOUBLE | REAL | DECIMAL | NUMERIC
  | VARCHAR | TEXT
  | BOOLEAN | BOOL
  | DATE | TIME | DATETIME | TIMESTAMP | YEAR | INTERVAL
  | UNION | INTERSECT | EXCEPT | MINUS
  | CASE | WHEN | THEN | ELSE | END
  | AS | ALL | ANY | SOME | EXISTS
  deriving DecidableEq, Repr

namespace Keyword

def spelling : Keyword → String
  | .SELECT => "SELECT"
  | .FROM => "FROM"
  | .WHERE => "WHERE"
  | .BETWEEN => "BETWEEN"
  | .DISTINCT => "DISTINCT"
  | .LIKE => "LIKE"
  | .IN => "IN"
  | .GROUP => "GROUP"
  | .BY => "BY"
  | .ORDER => "ORDER"
  | .HAVING => "HAVING"
  | .JOIN => "JOIN"
  | .INNER => "INNER"
  | .LEFT => "LEFT"
  | .RIGHT => "RIGHT"
  | .FULL => "FULL"
  | .OUTER => "OUTER"
  | .CROSS => "CROSS"
  | .ON => "ON"
  | .USING => "USING"
  | .AND => "AND"
  | .OR => "OR"
  | .NOT => "NOT"
  | .LIMIT => "LIMIT"
  | .OFFSET => "OFFSET"
  | .TOP => "TOP"
  | .FETCH => "FETCH"
  | .MIN => "MIN"
  | .MAX => "MAX"
  | .COUNT => "COUNT"
  | .SUM => "SUM"
  | .AVG => "AVG"
  | .INT => "INT"
  | .INTEGER => "INTEGER"
  | .TINYINT => "TINYINT"
  | .SMALLINT => "SMALLINT"
  | .MEDIUMINT => "MEDIUMINT"
  | .BIGINT => "BIGINT"
  | .INT2 => "INT2"
  | .INT4 => "INT4"
  | .INT8 => "INT8"
  | .FLOAT => "FLOAT"
  | .FLOAT4 => "FLOAT4"
  | .FLOAT8 => "FLOAT8"
  | .FLOAT32 => "FLOAT32"
  | .FLOAT64 => "FLOAT64"
  | .DOUBLE => "DOUBLE"
  | .REAL => "REAL"
  | .DECIMAL => "DECIMAL"
  | .NUMERIC => "NUMERIC"
  | .VARCHAR => "VARCHAR"
  | .TEXT => "TEXT"
  | .BOOLEAN => "BOOLEAN"
  | .BOOL => "BOOL"
  | .DATE => "DATE"
  | .TIME => "TIME"
  | .DATETIME => "DATETIME"
  | .TIMESTAMP => "TIMESTAMP"
  | .YEAR => "YEAR"
  | .INTERVAL => "INTERVAL"
  | .UNION => "UNION"
  | .INTERSECT => "INTERSECT"
  | .EXCEPT => "EXCEPT"
  | .MINUS => "MINUS"
  | .CASE => "CASE"
  | .WHEN => "WHEN"
  | .THEN => "THEN"
  | .ELSE => "ELSE"
  | .END => "END"
  | .AS => "AS"
  | .ALL => "ALL"
  | .ANY => "ANY"
  | .SOME => "SOME"
  | .EXISTS => "EXISTS"

def all : List Keyword :=
  [.SELECT, .FROM, .WHERE, .BETWEEN, .DISTINCT, .LIKE, .IN, .GROUP, .BY, .ORDER, .HAVING, .JOIN,
   .INNER, .LEFT, .RIGHT, .FULL, .OUTER, .CROSS, .ON, .USING, .AND, .OR, .NOT, .LIMIT, .OFFSET,
   .TOP, .FETCH, .MIN, .MAX, .COUNT, .SUM, .AVG, .INT, .INTEGER, .TINYINT, .SMALLINT, .MEDIUMINT,
   .BIGINT, .INT2, .INT4, .INT8, .FLOAT, .FLOAT4, .FLOAT8, .FLOAT32, .FLOAT64, .DOUBLE, .REAL,
   .DECIMAL, .NUMERIC, .VARCHAR, .TEXT, .BOOLEAN, .BOOL, .DATE, .TIME, .DATETIME, .TIMESTAMP,
   .YEAR, .INTERVAL, .UNION, .INTERSECT, .EXCEPT, .MINUS, .CASE, .WHEN, .THEN, .ELSE, .END, .AS,
   .ALL, .ANY, .SOME, .EXISTS]

theorem mem_all (k : Keyword) : k ∈ all := by
  cases k <;> decide

/-- The keywords that name the type of a column. -/
def dataTypes : List Keyword :=
  [.INT, .INTEGER, .TINYINT, .SMALLINT, .MEDIUMINT, .BIGINT, .INT2, .INT4, .INT8, .FLOAT,
   .FLOAT4, .FLOAT8, .FLOAT32, .FLOAT64, .DOUBLE, .REAL, .DECIMAL, .NUMERIC, .VARCHAR, .TEXT,
   .BOOLEAN, .BOOL, .DATE, .TIME, .DATETIME, .TIMESTAMP, .YEAR, .INTERVAL]

def isDataType (k : Keyword) : Bool := dataTypes.contains k

/-- A word with its ASCII letters in capitals. -/
def capitals (word : List Char) : String := String.ofList (word.map Char.toUpper)

def ofWord? (word : List Char) : Option Keyword :=
  let sought := capitals word
  all.find? fun k => k.spelling == sought

/-! ### The table of keywords -/

/-- Each keyword with its key. -/
def table : List (String × Keyword) :=
  [("SELECT", .SELECT), ("FROM", .FROM), ("WHERE", .WHERE), ("BETWEEN", .BETWEEN),
   ("DISTINCT", .DISTINCT), ("LIKE", .LIKE), ("IN", .IN), ("GROUP", .GROUP), ("BY", .BY),
   ("ORDER", .ORDER), ("HAVING", .HAVING), ("JOIN", .JOIN), ("INNER", .INNER), ("LEFT", .LEFT),
   ("RIGHT", .RIGHT), ("FULL", .FULL), ("OUTER", .OUTER), ("CROSS", .CROSS), ("ON", .ON),
   ("USING", .USING), ("AND", .AND), ("OR", .OR), ("NOT", .NOT), ("LIMIT", .LIMIT),
   ("OFFSET", .OFFSET), ("TOP", .TOP), ("FETCH", .FETCH), ("MIN", .MIN), ("MAX", .MAX),
   ("COUNT", .COUNT), ("SUM", .SUM), ("AVG", .AVG), ("INT", .INT), ("INTEGER", .INTEGER),
   ("TINYINT", .TINYINT), ("SMALLINT", .SMALLINT), ("MEDIUMINT", .MEDIUMINT), ("BIGINT", .BIGINT),
   ("INT2", .INT2), ("INT4", .INT4), ("INT8", .INT8), ("FLOAT", .FLOAT), ("FLOAT4", .FLOAT4),
   ("FLOAT8", .FLOAT8), ("FLOAT32", .FLOAT32), ("FLOAT64", .FLOAT64), ("DOUBLE", .DOUBLE),
   ("REAL", .REAL), ("DECIMAL", .DECIMAL), ("NUMERIC", .NUMERIC), ("VARCHAR", .VARCHAR),
   ("TEXT", .TEXT), ("BOOLEAN", .BOOLEAN), ("BOOL", .BOOL), ("DATE", .DATE), ("TIME", .TIME),
   ("DATETIME", .DATETIME), ("TIMESTAMP", .TIMESTAMP), ("YEAR", .YEAR), ("INTERVAL", .INTERVAL),
   ("UNION", .UNION), ("INTERSECT", .INTERSECT), ("EXCEPT", .EXCEPT), ("MINUS", .MINUS),
   ("CASE", .CASE), ("WHEN", .WHEN), ("THEN", .THEN), ("ELSE", .ELSE), ("END", .END), ("AS", .AS),
   ("ALL", .ALL), ("ANY", .ANY), ("SOME", .SOME), ("EXISTS", .EXISTS)]

/-- The most bytes that a key has. -/
def longest : Nat := 9

def isAscii (c : Char) : Bool := c.toNat < 0x80

/-- The keyword that a word is, found in the table. -/
def lookup? (word : List Char) : Option Keyword :=
  if longest < Text.size word || !word.all isAscii then none else table.lookup (capitals word)

end Keyword

namespace Word

/-- Characters that may begin a word. -/
def isStart (c : Char) : Bool := Text.isAlphabetic c || c == '_'

/-- Characters that may stand in a word after the first. -/
def isPart (c : Char) : Bool := Text.isAlphabetic c || Text.isNumeric c || c == '_'

/-- Words that are no names: keywords and the words that spell literals. -/
def isReserved (word : List Char) : Bool :=
  (Literal.ofWord? word).isSome || (Keyword.ofWord? word).isSome

end Word

end SqlScan

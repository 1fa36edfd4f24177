import CdcPipeline.Library.SqlLexer
import CdcPipeline.Model.OrderStore

namespace CdcPipeline.Model.Postgres

open Library Text Sql

/-- A numeric constant: a numeral, with or without a minus in front of it. -/
structure Amount where
  negative : Bool
  numeral : Bytes
deriving DecidableEq

/-- The values of an `INSERT`, as its constants spell them. -/
structure Values where
  id : Bytes
  userId : Bytes
  totalAmount : Amount
  status : Bytes
  items : Bytes
deriving DecidableEq

/-- The statements over `orders` that are told apart here. -/
inductive Statement where
  | insert (values : Values)
  | select (id : Bytes)
deriving DecidableEq

namespace Statement

/-- The columns both statements name, in their order. -/
def columns : List Token :=
  (["id", "user_id", "total_amount", "status", "items_jsonb"].map
    (fun c => Token.word (bytes c))).intersperse (.punctuation 44)

def insertHead : List Token :=
  [.word (bytes "INSERT"), .word (bytes "INTO"), .word (bytes "orders"), .punctuation 40] ++
    columns ++ [.punctuation 41, .word (bytes "VALUES"), .punctuation 40]

def selectHead : List Token :=
  .word (bytes "SELECT") :: columns ++ [.word (bytes "FROM"), .word (bytes "orders"),
    .word (bytes "WHERE"), .word (bytes "id"), .operator (bytes "=")]

def readAmount : List Token → Option (Amount × List Token)
  | .operator [45] :: .number n :: rest => some (⟨true, n⟩, rest)
  | .number n :: rest => some (⟨false, n⟩, rest)
  | _ => none

def readValues : List Token → Option Values
  | .string id :: .punctuation 44 :: .string userId :: .punctuation 44 :: rest =>
    match readAmount rest with
    | some (amount, [.punctuation 44, .string status, .punctuation 44, .string items,
        .punctuation 41]) => some ⟨id, userId, amount, status, items⟩
    | _ => none
  | _ => none

/-- The statement that some tokens are, if it is one of these. -/
def ofTokens (ts : List Token) : Option Statement :=
  if ts.take insertHead.length = insertHead then
    (readValues (ts.drop insertHead.length)).map .insert
  else if ts.take selectHead.length = selectHead then
    match ts.drop selectHead.length with
    | [.string id] => some (.select id)
    | _ => none
  else none

/-- The statement that a text is. -/
def ofText (sql : Bytes) : Option Statement := (lex sql).bind ofTokens

end Statement

/-- PostgreSQL's reading of a value of each column: the text it gives back, or a complaint. -/
structure ColumnTypes where
  uuid : Bytes → Except Bytes Bytes
  decimal : Amount → Except Bytes Bytes
  varchar : Bytes → Except Bytes Bytes
  jsonb : Bytes → Except Bytes Bytes

/-- The row an `INSERT` makes; both times are that of the transaction. -/
def ColumnTypes.row (cols : ColumnTypes) (v : Values) (now : Bytes) : Except Bytes OrderRow := do
  let id ← cols.uuid v.id
  let userId ← cols.uuid v.userId
  let totalAmount ← cols.decimal v.totalAmount
  let status ← cols.varchar v.status
  let items ← cols.jsonb v.items
  return ⟨id, userId, totalAmount, status, items, some now, some now⟩

end CdcPipeline.Model.Postgres

import Gonitor.Framework.Binary64
import Gonitor.Framework.SoftDeleteTable
import Gonitor.Model.Rows

/-!
# Pagination

`model.Pagination` of `model/base.go`, with which the log of a task and the other long lists are
read page by page.  The defaults of the page and its size are filled in by the getters, when the
query is put together; the number of pages has been computed before that, from the bare field.
-/

namespace Gonitor.Model

open SoftDelete

/-- The fields of `model.Pagination` that a request sets. -/
structure Pagination where
  limit : Int64 := 0
  page : Int64 := 0
  deriving DecidableEq

/-- `InitPagination`: what `strconv.ParseInt` makes of the two path values. -/
def initPagination (pageNumber pageSize : Option Int64) : Pagination where
  page := pageNumber.getD 0
  limit := pageSize.getD 0

namespace Pagination

/-- `GetLimit` -/
def getLimit (p : Pagination) : Int64 := if p.limit = 0 then 10 else p.limit

/-- `GetPage` -/
def getPage (p : Pagination) : Int64 := if p.page = 0 then 1 else p.page

/-- `GetOffset`; the product wraps around. -/
def getOffset (p : Pagination) : Int64 := (p.getPage - 1) * p.getLimit

/-- `TotalPages`, where the language defines it: a quotient by zero and a value out of the range
    of `int` are converted to whatever the machine makes of them. -/
def totalPages (p : Pagination) (totalRows : Nat) : Option ℤ :=
  if p.limit = 0 then none
  else
    let pages := ⌈Binary64.round (Binary64.round totalRows / Binary64.round p.limit.toInt)⌉
    if -2 ^ 63 ≤ pages ∧ pages < 2 ^ 63 then some pages else none

end Pagination

/-- What is answered: the fields of `model.Pagination` that `Paginate` and the query fill in. -/
structure Listing (ρ : Type) where
  totalRows : Nat
  totalPages : Option ℤ
  rows : List ρ

/-- A query with `OFFSET` and `LIMIT`, either of which is left out if it is negative. -/
def offsetLimit {ρ : Type} (offset limit : Int64) (rows : List ρ) : List ρ :=
  let rest := if offset < 0 then rows else rows.drop offset.toInt.toNat
  if limit < 0 then rest else rest.take limit.toInt.toNat

/-- `Paginate`, and the query it is for; the rows come in ascending order of their ids. -/
def paginate {ρ T : Type} [Row ρ T] (t : Table ρ) (condition : ρ → Bool) (p : Pagination) :
    Listing ρ where
  totalRows := (t.find condition).length
  totalPages := p.totalPages (t.find condition).length
  rows := offsetLimit p.getOffset p.getLimit (t.find condition)

/-- The `where` of `GetTaskLogList`: the ended runs of a task. -/
def endedRuns (taskId : Int) (row : TaskLog) : Bool := row.taskId == taskId && !row.status

/-- `GetTaskLogList` -/
def getTaskLogList (t : Table TaskLog) (taskId : Int) (pageNumber pageSize : Option Int64) :
    Listing TaskLog :=
  paginate t (endedRuns taskId) (initPagination pageNumber pageSize)

end Gonitor.Model

import Mathlib.Data.List.Basic
import TenantLibrary.Store.Parameters

/-!
Paginated listings (`app/schemas/common.py`).

A listing counts the rows it selects and returns one page of them. The query parameters
`page` and `page_size` carry the bounds that the API checks. The page has no upper bound, so
the offset it leads to may be one that the database refuses.
-/

namespace TenantLibrary.Api

open TenantLibrary.Store

/-- The query parameters `page` and `page_size`. -/
structure PageParams where
  page : Nat
  pageSize : Nat
  page_pos : 1 ≤ page
  pageSize_pos : 1 ≤ pageSize
  pageSize_le : pageSize ≤ 100
deriving DecidableEq

/-- The defaults of the parameters. -/
def PageParams.first : PageParams := ⟨1, 20, by decide, by decide, by decide⟩

structure PaginatedResponse (T : Type) where
  items : List T
  total : Nat
  page : Nat
  pageSize : Nat
  totalPages : Nat
deriving DecidableEq, Repr

def PageParams.offset (params : PageParams) : Nat := (params.page - 1) * params.pageSize

/-- What `OFFSET` and `LIMIT` bind. -/
def PageParams.parameters (params : PageParams) : List Parameter :=
  [.bigint params.offset, .bigint params.pageSize]

/-- The database takes the offset. -/
def PageParams.Reachable (params : PageParams) : Prop :=
  params.page ≤ (2 ^ 63 - 1) / params.pageSize + 1

/-- `OFFSET` and `LIMIT`. -/
def PageParams.slice {α : Type} (params : PageParams) (rows : List α) : List α :=
  (rows.drop params.offset).take params.pageSize

/-- `math.ceil(total / page_size) if total > 0 else 0`. -/
def PageParams.totalPages (params : PageParams) (total : Nat) : Nat :=
  if total > 0 then (total + params.pageSize - 1) / params.pageSize else 0

/-- The response for a page. -/
def PageParams.respond {α : Type} (params : PageParams) (total : Nat) (items : List α) :
    PaginatedResponse α where
  items := items
  total := total
  page := params.page
  pageSize := params.pageSize
  totalPages := params.totalPages total

theorem PageParams.reachable_iff {params : PageParams} :
    params.Reachable ↔ params.offset < 2 ^ 63 := by
  rw [offset, Reachable, Nat.lt_iff_le_pred (by omega), ← Nat.le_div_iff_mul_le params.pageSize_pos,
    Nat.sub_le_iff_le_add]

theorem fits_page {params : PageParams} :
    (∀ parameter ∈ params.parameters, parameter.fits) ↔ params.Reachable := by
  have limit : fitsBits 64 params.pageSize :=
    fitsBits_natCast.mpr (params.pageSize_le.trans_lt (by omega))
  rw [PageParams.parameters, List.forall_mem_cons, List.forall_mem_singleton, Parameter.fits,
    Parameter.fits, and_iff_left limit, fitsBits_natCast, PageParams.reachable_iff]

end TenantLibrary.Api

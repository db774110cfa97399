import Mathlib.Algebra.Order.Floor.Div
import Mathlib.Data.List.Range

/-!
# Pagination

`app/api/deps/pagination.py`: the parameters of a page, the response for it, and a client that
asks for one page after the other while the response says that there is another one.

## Main results

- `lt_pageCount_iff` — when there is a page behind a page
- `walk_covers` — the client sees every item once, in order
-/

namespace RagEval.Api

/-- `MAX_PAGE_SIZE`. -/
def maxPageSize : Nat := 100

/-- The parameters that pass the constraints of the query. -/
structure PaginationParams where
  page : Nat
  pageSize : Nat
  page_ge : 1 ≤ page := by decide
  pageSize_ge : 1 ≤ pageSize := by decide
  pageSize_le : pageSize ≤ maxPageSize := by decide

namespace PaginationParams

def offset (self : PaginationParams) : Nat := (self.page - 1) * self.pageSize

def limit (self : PaginationParams) : Nat := self.pageSize

/-- The parameters of the page behind. -/
def next (self : PaginationParams) : PaginationParams :=
  { self with page := self.page + 1, page_ge := Nat.le_add_left 1 self.page }

theorem offset_next (self : PaginationParams) : self.next.offset = self.offset + self.limit := by
  obtain ⟨page, pageSize, hpage, -, -⟩ := self
  obtain ⟨k, rfl⟩ := Nat.exists_eq_add_of_le' hpage
  show (k + 1) * pageSize = k * pageSize + pageSize
  rw [Nat.succ_mul]

theorem offset_add_limit (self : PaginationParams) :
    self.offset + self.limit = self.page * self.pageSize := by
  rw [← offset_next]
  rfl

end PaginationParams

structure PaginatedResponse (α : Type) where
  items : List α
  total : Nat
  page : Nat
  pageSize : Nat
  pages : Nat
  hasNext : Bool
  hasPrev : Bool

/-- The number of pages. -/
def pageCount (total pageSize : Nat) : Nat :=
  if total > 0 then (total + pageSize - 1) / pageSize else 1

variable {α : Type}

/-- `PaginatedResponse.create`. -/
def PaginatedResponse.create (items : List α) (total : Nat) (pagination : PaginationParams) :
    PaginatedResponse α :=
  let pages := pageCount total pagination.pageSize
  { items, total, page := pagination.page, pageSize := pagination.pageSize, pages
    hasNext := pagination.page < pages
    hasPrev := pagination.page > 1 }

/-- The page `items[offset : offset + limit]` of a list. -/
def fetchPage (items : List α) (pagination : PaginationParams) : PaginatedResponse α :=
  .create ((items.drop pagination.offset).take pagination.limit) items.length pagination

/-- The pages a client sees from a page on. -/
def walkFrom (items : List α) (pagination : PaginationParams) : List (PaginatedResponse α) :=
  let response := fetchPage items pagination
  if response.hasNext then response :: walkFrom items pagination.next else [response]
termination_by pageCount items.length pagination.pageSize - pagination.page
decreasing_by
  have hnext : pagination.page < pageCount items.length pagination.pageSize :=
    of_decide_eq_true ‹response.hasNext = true›
  show pageCount items.length pagination.pageSize - (pagination.page + 1) < _
  omega

/-! ## When there is another page -/

/-- There is a page behind a page exactly if there are items behind it. -/
theorem lt_pageCount_iff {total pageSize page : Nat} (hsize : 1 ≤ pageSize) (hpage : 1 ≤ page) :
    page < pageCount total pageSize ↔ page * pageSize < total := by
  unfold pageCount
  split
  · rw [← Nat.ceilDiv_eq_add_pred_div, ← not_le, ceilDiv_le_iff_le_mul hsize, not_le, mul_comm]
  · omega

theorem hasNext_fetchPage_iff (items : List α) (pagination : PaginationParams) :
    (fetchPage items pagination).hasNext = true ↔
      pagination.offset + pagination.limit < items.length := by
  rw [pagination.offset_add_limit, ← lt_pageCount_iff pagination.pageSize_ge pagination.page_ge]
  exact decide_eq_true_iff

theorem hasPrev_fetchPage_iff (items : List α) (pagination : PaginationParams) :
    (fetchPage items pagination).hasPrev = true ↔ 1 < pagination.page := decide_eq_true_iff

/-! ## The walk -/

/-- From a page on, the walk sees the rest of the list. -/
theorem flatMap_walkFrom (items : List α) (pagination : PaginationParams) :
    (walkFrom items pagination).flatMap PaginatedResponse.items = items.drop pagination.offset := by
  fun_induction walkFrom items pagination with
  | case1 pagination response hnext ih =>
    rw [List.flatMap_cons, ih, pagination.offset_next, ← List.drop_drop]
    exact List.take_append_drop _ _
  | case2 pagination response hnext =>
    have hlast : items.length ≤ pagination.offset + pagination.limit := by
      rwa [hasNext_fetchPage_iff, not_lt] at hnext
    rw [List.flatMap_singleton]
    refine List.take_of_length_le ?_
    rw [List.length_drop]
    omega

/-- The pages are numbered one after the other, up to the last one. -/
theorem map_page_walkFrom (items : List α) (pagination : PaginationParams)
    (hpage : pagination.page ≤ pageCount items.length pagination.pageSize) :
    (walkFrom items pagination).map PaginatedResponse.page = List.range' pagination.page
      (pageCount items.length pagination.pageSize + 1 - pagination.page) := by
  fun_induction walkFrom items pagination with
  | case1 pagination response hnext ih =>
    have hlt : pagination.page < pageCount items.length pagination.pageSize :=
      of_decide_eq_true hnext
    have hcount : pageCount items.length pagination.pageSize + 1 - pagination.page =
        (pageCount items.length pagination.pageSize + 1 - (pagination.page + 1)) + 1 := by omega
    rw [List.map_cons, ih hlt, hcount, List.range'_succ]
    rfl
  | case2 pagination response hnext =>
    have hge : ¬pagination.page < pageCount items.length pagination.pageSize := fun h =>
      hnext (decide_eq_true h)
    have hcount : pageCount items.length pagination.pageSize + 1 - pagination.page = 1 := by omega
    rw [List.map_singleton, hcount]
    rfl

/-- Every response of a walk is the page of its number. -/
theorem mem_walkFrom {items : List α} {pagination : PaginationParams}
    {response : PaginatedResponse α} (h : response ∈ walkFrom items pagination) :
    ∃ params : PaginationParams, params.pageSize = pagination.pageSize ∧
      (params = pagination ∨ params.offset < items.length) ∧ response = fetchPage items params := by
  fun_induction walkFrom items pagination with
  | case1 pagination first hnext ih =>
    rcases List.mem_cons.mp h with rfl | h
    · exact ⟨pagination, rfl, .inl rfl, rfl⟩
    · obtain ⟨params, hsize, hoffset, rfl⟩ := ih h
      refine ⟨params, hsize, .inr ?_, rfl⟩
      rcases hoffset with rfl | hoffset
      · rw [pagination.offset_next]
        exact (hasNext_fetchPage_iff items pagination).mp hnext
      · exact hoffset
  | case2 pagination first hnext =>
    exact ⟨pagination, rfl, .inl rfl, List.mem_singleton.mp h⟩

/-- A client that walks from the first page sees as many pages as each of them announces, and on
them every item of the list once, in order; no page is empty unless the list is. A page has a
next one exactly if there are items behind it, and a previous one exactly if it is not the
first. -/
theorem walk_covers (items : List α) (pageSize : Nat) (hpos : 1 ≤ pageSize)
    (hle : pageSize ≤ maxPageSize) :
    let visited := walkFrom items ⟨1, pageSize, le_rfl, hpos, hle⟩
    (visited.map PaginatedResponse.page = List.range' 1 visited.length ∧
      ∀ response ∈ visited, response.pages = visited.length) ∧
    visited.flatMap PaginatedResponse.items = items ∧
    (items ≠ [] → ∀ response ∈ visited, response.items ≠ []) ∧
    ∀ pagination : PaginationParams, ((fetchPage items pagination).hasNext = true ↔
        pagination.offset + pagination.limit < items.length) ∧
      ((fetchPage items pagination).hasPrev = true ↔ 1 < pagination.page) := by
  intro visited
  have hcount : 1 ≤ pageCount items.length pageSize := by
    unfold pageCount
    split
    · exact Nat.div_pos (by omega) hpos
    · exact le_rfl
  have hpages : visited.map PaginatedResponse.page =
      List.range' 1 (pageCount items.length pageSize) :=
    map_page_walkFrom items ⟨1, pageSize, le_rfl, hpos, hle⟩ hcount
  have hlength : visited.length = pageCount items.length pageSize := by
    have hmap := congrArg List.length hpages
    rwa [List.length_map, List.length_range'] at hmap
  refine ⟨⟨by rw [hpages, hlength], ?_⟩, ?_, ?_, ?_⟩
  · intro response hresponse
    obtain ⟨params, hsize, -, rfl⟩ := mem_walkFrom hresponse
    rw [hlength, ← (show params.pageSize = pageSize from hsize)]
    rfl
  · rw [flatMap_walkFrom, PaginationParams.offset, Nat.sub_self, Nat.zero_mul, List.drop_zero]
  · intro hne response hresponse
    obtain ⟨params, hsize, hoffset, rfl⟩ := mem_walkFrom hresponse
    have hlt : params.offset < items.length := by
      rcases hoffset with rfl | hoffset
      · rw [PaginationParams.offset, Nat.sub_self, Nat.zero_mul]
        exact List.length_pos_iff.mpr hne
      · exact hoffset
    have hpositive : 0 < ((items.drop params.offset).take params.limit).length := by
      have hlimit : 1 ≤ params.limit := params.pageSize_ge
      rw [List.length_take, List.length_drop]
      omega
    exact List.length_pos_iff.mp hpositive
  · intro pagination
    exact ⟨hasNext_fetchPage_iff items pagination, hasPrev_fetchPage_iff items pagination⟩

/-- Seven items, three on a page. -/
theorem walk_covers_seven :
    let visited := walkFrom (List.range 7) ⟨1, 3, le_rfl, by decide, by decide⟩
    (visited.map PaginatedResponse.page = List.range' 1 visited.length ∧
      ∀ response ∈ visited, response.pages = visited.length) ∧
    visited.flatMap PaginatedResponse.items = List.range 7 ∧
    ∀ response ∈ visited, response.items ≠ [] := by
  obtain ⟨hpages, hitems, hne, -⟩ := walk_covers (List.range 7) 3 (by decide) (by decide)
  exact ⟨hpages, hitems, hne (by decide)⟩

end RagEval.Api

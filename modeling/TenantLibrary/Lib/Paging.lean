import Mathlib.Data.List.Nodup
import Mathlib.Data.List.Perm.Basic
import Mathlib.Order.Nat

/-!
Pages of a list that every query may put in another order.

A query returns its rows in an order its `ORDER BY` allows, and a page is a slice of
that order; the next query may order the rows that tie differently. `PagesDisjoint` says
that rows that tie stand on one page. Then every page has the same rows in every order
(`page_eq_filter`), and the pages together are the rows (`perm_of_together`). When a tie
straddles two pages, some orders repeat a row (`repeated_of_straddle`).
-/

namespace TenantLibrary.Lib

variable {α β : Type*}

/-- `OFFSET` and `LIMIT` of a page, counted from 0. -/
def page (size k : Nat) (ordered : List α) : List α := (ordered.drop (k * size)).take size

/-- The pages needed for a number of rows. -/
def pageCount (size total : Nat) : Nat := (total + size - 1) / size

/-- A comparison that rows can be sorted by; rows may tie. -/
structure TotalPreorder (le : α → α → Bool) : Prop where
  total : ∀ a b, le a b || le b a
  trans : ∀ a b c, le a b → le b c → le a c

/-- The rows in an order that the comparison allows. -/
def Orders (le : α → α → Bool) (rows ordered : List α) : Prop :=
  ordered.Perm rows ∧ ordered.Pairwise fun a b => le a b

/-- The page of the first of the rows that tie with `a`. -/
def pageOf (le : α → α → Bool) (size : Nat) (rows : List α) (a : α) : Nat :=
  rows.countP (fun b => !le a b) / size

/-- Rows that tie stand on one page. -/
def TiesTogether (le : α → α → Bool) (size : Nat) (rows : List α) : Prop :=
  ∀ a ∈ rows, pageOf le size rows a = (rows.countP (fun b => le b a) - 1) / size

variable {le : α → α → Bool} {size : Nat} {rows ordered : List α}

theorem TotalPreorder.refl (order : TotalPreorder le) (a : α) : le a a := by
  simpa using order.total a a

/-! ### Positions -/

/-- A sorted list is sorted by positions. -/
theorem le_of_position (order : TotalPreorder le) (sorted : ordered.Pairwise fun a b => le a b)
    {i j : Nat} (ordered_ij : i ≤ j) (h : j < ordered.length) : le ordered[i] ordered[j] := by
  rcases Nat.eq_or_lt_of_le ordered_ij with rfl | before
  · exact order.refl _
  · exact List.pairwise_iff_getElem.mp sorted i j (by omega) h before

/-- Fewer rows are below a row than stand before it. -/
theorem countP_below_le (order : TotalPreorder le) (sorted : ordered.Pairwise fun a b => le a b)
    {i : Nat} (h : i < ordered.length) : ordered.countP (fun b => !le ordered[i] b) ≤ i := by
  have behind : (ordered.drop i).countP (fun b => !le ordered[i] b) = 0 := by
    rw [List.countP_eq_zero]
    intro b mem
    obtain ⟨j, inside, rfl⟩ := List.mem_drop_iff_getElem.mp mem
    simpa using le_of_position order sorted (show i ≤ i + j by omega) (by omega)
  calc ordered.countP (fun b => !le ordered[i] b)
      = (ordered.take i).countP (fun b => !le ordered[i] b) +
          (ordered.drop i).countP (fun b => !le ordered[i] b) := by
        rw [← List.countP_append, List.take_append_drop]
    _ ≤ (ordered.take i).length + 0 := Nat.add_le_add List.countP_le_length behind.le
    _ ≤ i := by rw [List.length_take]; omega

/-- The rows before a row and the row itself are not above it. -/
theorem lt_countP_upto (order : TotalPreorder le) (sorted : ordered.Pairwise fun a b => le a b)
    {i : Nat} (h : i < ordered.length) : i < ordered.countP (fun b => le b ordered[i]) := by
  have before : (ordered.take (i + 1)).countP (fun b => le b ordered[i]) =
      (ordered.take (i + 1)).length := by
    rw [List.countP_eq_length]
    intro b mem
    obtain ⟨j, inside, rfl⟩ := List.mem_take_iff_getElem.mp mem
    exact le_of_position order sorted (by omega) h
  calc i < (ordered.take (i + 1)).length := by rw [List.length_take]; omega
    _ = (ordered.take (i + 1)).countP (fun b => le b ordered[i]) := before.symm
    _ ≤ ordered.countP (fun b => le b ordered[i]) := (List.take_sublist _ _).countP_le

/-- Where ties stay together, the page of a row follows from its position. -/
theorem pageOf_getElem (order : TotalPreorder le) (orders : Orders le rows ordered)
    (together : TiesTogether le size rows) {i : Nat} (h : i < ordered.length) :
    pageOf le size rows ordered[i] = i / size := by
  have mem : ordered[i] ∈ rows := orders.1.mem_iff.mp (List.getElem_mem h)
  have first := countP_below_le order orders.2 h
  have last := lt_countP_upto order orders.2 h
  rw [orders.1.countP_eq] at first last
  have below : pageOf le size rows ordered[i] ≤ i / size := Nat.div_le_div_right first
  have above : i / size ≤ (rows.countP (fun b => le b ordered[i]) - 1) / size :=
    Nat.div_le_div_right (by omega)
  rw [← together _ mem] at above
  omega

/-! ### Pages where ties stay together -/

/-- A slice is what stands on the page. -/
theorem page_eq_filter (order : TotalPreorder le) (orders : Orders le rows ordered)
    (together : TiesTogether le size rows) (positive : 0 < size) (k : Nat) :
    page size k ordered = ordered.filter fun a => pageOf le size rows a = k := by
  let onPage (a : α) : Bool := pageOf le size rows a = k
  have position {i : Nat} (h : i < ordered.length) : onPage ordered[i] = decide (i / size = k) := by
    simp only [onPage, pageOf_getElem order orders together h]
  have before : (ordered.take (k * size)).filter onPage = [] := by
    refine List.filter_eq_nil_iff.mpr fun a mem => ?_
    obtain ⟨i, inside, rfl⟩ := List.mem_take_iff_getElem.mp mem
    have earlier : i / size < k := (Nat.div_lt_iff_lt_mul positive).mpr (by omega)
    rw [position (by omega), decide_eq_true_eq]
    omega
  have inside : (page size k ordered).filter onPage = page size k ordered := by
    refine List.filter_eq_self.mpr fun a mem => ?_
    obtain ⟨j, short, rfl⟩ := List.mem_take_iff_getElem.mp mem
    rw [List.length_drop] at short
    rw [List.getElem_drop, position (by omega), decide_eq_true_eq]
    exact Nat.div_eq_of_lt_le (by omega) (by rw [Nat.succ_mul]; omega)
  have after : ((ordered.drop (k * size)).drop size).filter onPage = [] := by
    refine List.filter_eq_nil_iff.mpr fun a mem => ?_
    rw [List.drop_drop] at mem
    obtain ⟨j, long, rfl⟩ := List.mem_drop_iff_getElem.mp mem
    have later : k + 1 ≤ (k * size + size + j) / size :=
      (Nat.le_div_iff_mul_le positive).mpr (by rw [Nat.succ_mul]; omega)
    rw [position (by omega), decide_eq_true_eq]
    omega
  calc page size k ordered
      = (ordered.take (k * size)).filter onPage ++ ((page size k ordered).filter onPage ++
          ((ordered.drop (k * size)).drop size).filter onPage) := by
        rw [before, inside, after, List.nil_append, List.append_nil]
    _ = ordered.filter onPage := by
        rw [page, ← List.filter_append, ← List.filter_append, List.take_append_drop,
          List.take_append_drop]

/-- The classes of a function below a bound are all the rows. -/
theorem perm_flatMap_filter (f : α → Nat) (rows : List α) (n : Nat) :
    ((List.range n).flatMap fun k => rows.filter fun a => f a = k).Perm
      (rows.filter fun a => f a < n) := by
  induction n with
  | zero => simp
  | succ n ih =>
      rw [List.range_succ, List.flatMap_append, List.flatMap_singleton]
      refine (ih.append_right _).trans ?_
      refine List.Perm.trans ?_ (List.filter_append_perm (fun a => f a < n) _)
      rw [List.filter_filter, List.filter_filter]
      refine .of_eq (congrArg₂ _ (List.filter_congr fun a _ => ?_) (List.filter_congr fun a _ => ?_))
      · by_cases below : f a < n
        · simp [below, show f a < n + 1 by omega]
        · simp [below]
      · by_cases last : f a = n
        · simp [last]
        · by_cases below : f a < n
          · simp [below, last]
          · simp [below, last, show ¬ f a < n + 1 by omega]

/-- Every row stands on one of the pages. -/
theorem pageOf_lt (order : TotalPreorder le) (positive : 0 < size) {a : α} (mem : a ∈ rows) :
    pageOf le size rows a < pageCount size rows.length := by
  have own : rows.countP (fun b => !le a b) < rows.length := by
    refine Nat.lt_of_le_of_ne List.countP_le_length fun all => ?_
    have below := List.countP_eq_length.mp all a mem
    simp [order.refl a] at below
  rw [pageOf, pageCount]
  calc rows.countP (fun b => !le a b) / size ≤ (rows.length - 1) / size :=
        Nat.div_le_div_right (by omega)
    _ < (rows.length - 1 + size) / size := by
        rw [Nat.add_div_right _ positive]
        omega
    _ = (rows.length + size - 1) / size := by congr 1; omega

/-- Pages of different orders together are the rows. -/
theorem perm_of_together (order : TotalPreorder le) (together : TiesTogether le size rows)
    (positive : 0 < size) {ordered : Nat → List α} (orders : ∀ k, Orders le rows (ordered k)) :
    ((List.range (pageCount size rows.length)).flatMap fun k => page size k (ordered k)).Perm
      rows := by
  have filtered : ∀ k ∈ List.range (pageCount size rows.length),
      (page size k (ordered k)).Perm (rows.filter fun a => pageOf le size rows a = k) :=
    fun k _ => page_eq_filter order (orders k) together positive k ▸ (orders k).1.filter _
  refine (List.Perm.flatMap_left _ filtered).trans ((perm_flatMap_filter _ _ _).trans ?_)
  rw [List.filter_eq_self.mpr fun a mem => by simpa using pageOf_lt order positive mem]

/-! ### Ties that straddle two pages -/

/-- A row stands on the page of its position. -/
theorem getElem_mem_page (positive : 0 < size) {i : Nat} (h : i < ordered.length) :
    ordered[i] ∈ page size (i / size) ordered := by
  have start : i / size * size ≤ i := Nat.div_mul_le_self i size
  have short : i < i / size * size + size := Nat.lt_div_mul_add positive
  refine List.mem_take_iff_getElem.mpr ⟨i - i / size * size, ?_, ?_⟩
  · rw [List.length_drop]
    omega
  · rw [List.getElem_drop]
    congr 1
    omega

/-- Neighbours that tie can change places. -/
theorem Orders.swap {before after : List α} {a b : α}
    (orders : Orders le rows (before ++ a :: b :: after)) (tie : le b a) :
    Orders le rows (before ++ b :: a :: after) := by
  refine ⟨((List.Perm.swap a b after).append_left before).trans orders.1, ?_⟩
  have sorted := orders.2
  simp only [List.pairwise_append, List.pairwise_cons, List.mem_cons, forall_eq_or_imp] at sorted ⊢
  obtain ⟨first, ⟨⟨_, aAfter⟩, bAfter, rest⟩, across⟩ := sorted
  exact ⟨first, ⟨⟨tie, bAfter⟩, aAfter, rest⟩, fun c mem =>
    ⟨(across c mem).2.1, (across c mem).1, (across c mem).2.2⟩⟩

theorem orders_mergeSort (order : TotalPreorder le) (rows : List α) :
    Orders le rows (rows.mergeSort le) :=
  ⟨List.mergeSort_perm rows le, List.pairwise_mergeSort order.trans order.total rows⟩

/-- A boundary of pages inside a tie has equal rows on its two sides. -/
theorem tie_at_boundary (order : TotalPreorder le) (sorted : ordered.Pairwise fun a b => le a b)
    {x : α} {m : Nat} (above : ordered.countP (fun b => !le x b) < m + 1)
    (below : m + 1 < ordered.countP (fun b => le b x)) (h : m + 1 < ordered.length) :
    le ordered[m + 1] ordered[m] := by
  have upper : le ordered[m + 1] x := by
    by_contra beyond
    -- then whatever is not above `x` stands before `m + 1`
    have behind : (ordered.drop (m + 1)).countP (fun b => le b x) = 0 := by
      rw [List.countP_eq_zero]
      intro b mem upto
      obtain ⟨j, inside, rfl⟩ := List.mem_drop_iff_getElem.mp mem
      exact beyond (order.trans _ _ _ (le_of_position order sorted (by omega) (by omega)) upto)
    have counted : ordered.countP (fun b => le b x) ≤ m + 1 := by
      rw [← List.take_append_drop (m + 1) ordered, List.countP_append, behind]
      exact List.countP_le_length.trans (by rw [List.length_take]; omega)
    omega
  have lower : le x ordered[m] := by
    by_contra under
    -- then everything up to `m` is below `x`
    have before : (ordered.take (m + 1)).countP (fun b => !le x b) =
        (ordered.take (m + 1)).length := by
      rw [List.countP_eq_length]
      intro b mem
      obtain ⟨j, inside, rfl⟩ := List.mem_take_iff_getElem.mp mem
      simp only [Bool.not_eq_true']
      by_contra atLeast
      have atLeast : le x ordered[j] := by simpa using atLeast
      exact under (order.trans _ _ _ atLeast (le_of_position order sorted (by omega) (by omega)))
    have counted := (List.take_sublist (m + 1) ordered).countP_le (p := fun b => !le x b)
    rw [before, List.length_take] at counted
    omega
  exact order.trans _ _ _ upper lower

/-- When a tie straddles two pages, two orders have one row on both. -/
theorem repeated_of_straddle (order : TotalPreorder le) (positive : 0 < size)
    (straddles : ¬ TiesTogether le size rows) :
    ∃ ordered ordered' k a, Orders le rows ordered ∧ Orders le rows ordered' ∧
      k + 1 < pageCount size rows.length ∧ a ∈ page size k ordered ∧
      a ∈ page size (k + 1) ordered' := by
  obtain ⟨x, mem, straddle⟩ : ∃ x ∈ rows,
      pageOf le size rows x ≠ (rows.countP (fun b => le b x) - 1) / size := by
    simpa [TiesTogether] using straddles
  let ordered := rows.mergeSort le
  have orders : Orders le rows ordered := orders_mergeSort order rows
  have length : ordered.length = rows.length := orders.1.length_eq
  obtain ⟨i, inside, isX⟩ := List.getElem_of_mem (orders.1.mem_iff.mpr mem)
  have first := countP_below_le order orders.2 inside
  have last := lt_countP_upto order orders.2 inside
  have most : ordered.countP (fun b => le b x) ≤ ordered.length := List.countP_le_length
  rw [isX] at first last
  rw [pageOf, ← orders.1.countP_eq, ← orders.1.countP_eq] at straddle
  -- `m + 1` is the first position of the last page of the tie
  generalize lastPage : (ordered.countP (fun b => le b x) - 1) / size = k' at straddle
  have earlier : ordered.countP (fun b => !le x b) / size < k' := by
    have atMost : ordered.countP (fun b => !le x b) / size ≤ k' :=
      lastPage ▸ Nat.div_le_div_right (by omega)
    omega
  have start : k' * size ≤ ordered.countP (fun b => le b x) - 1 :=
    lastPage ▸ Nat.div_mul_le_self _ _
  have beyond := (Nat.div_lt_iff_lt_mul positive).mp earlier
  obtain ⟨k, rfl⟩ := Nat.exists_eq_add_one_of_ne_zero (Nat.ne_zero_of_lt earlier)
  obtain ⟨m, boundary⟩ : ∃ m, (k + 1) * size = m + 1 := ⟨(k + 1) * size - 1, by omega⟩
  rw [boundary] at start beyond
  have short : m + 1 < ordered.length := by omega
  have tie := tie_at_boundary order orders.2 beyond (by omega) short
  have split : ordered = ordered.take m ++ ordered[m] :: ordered[m + 1] :: ordered.drop (m + 2) := by
    rw [← List.drop_eq_getElem_cons short, ← List.drop_eq_getElem_cons (by omega),
      List.take_append_drop]
  have swapped := Orders.swap (split ▸ orders) tie
  have prefixLength : (ordered.take m).length = m := by
    rw [List.length_take]
    omega
  have before : m / size = k := Nat.div_eq_of_lt_le (by rw [Nat.succ_mul] at boundary; omega)
    (by omega)
  have after : (m + 1) / size = k + 1 := boundary ▸ Nat.mul_div_cancel _ positive
  refine ⟨ordered, _, k, ordered[m], orders, swapped, ?_, before ▸ getElem_mem_page positive _, ?_⟩
  · rw [pageCount, Nat.lt_iff_add_one_le, Nat.le_div_iff_mul_le positive, Nat.succ_mul]
    omega
  · have onNext := @getElem_mem_page _ size (ordered.take m ++ ordered[m + 1] :: ordered[m] ::
      ordered.drop (m + 2)) positive (m + 1) (by simp [prefixLength])
    rw [after] at onNext
    simpa [List.getElem_append_right, prefixLength] using onNext

/-! ### The pages together -/

/-- No row stands beyond the last page. -/
theorem page_beyond (positive : 0 < size) {k : Nat} (beyond : pageCount size ordered.length ≤ k) :
    page size k ordered = [] := by
  have counted : ordered.length + size - 1 < (k + 1) * size :=
    (Nat.div_lt_iff_lt_mul positive).mp (Nat.lt_succ_of_le beyond)
  rw [Nat.succ_mul] at counted
  rw [page, List.drop_of_length_le (by omega), List.take_nil]

/-- The pages together are the rows, whatever the orders, exactly when ties stay
together. -/
theorem perm_pages_iff (order : TotalPreorder le) (positive : 0 < size) {out : α → β}
    (distinct : (rows.map out).Nodup) :
    (∀ ordered : Nat → List α, (∀ k, Orders le rows (ordered k)) →
      ((List.range (pageCount size rows.length)).flatMap fun k =>
        (page size k (ordered k)).map out).Perm (rows.map out)) ↔
      TiesTogether le size rows := by
  constructor
  · intro partition
    by_contra straddles
    obtain ⟨ordered, ordered', k, a, orders, orders', inside, here, there⟩ :=
      repeated_of_straddle order positive straddles
    let family (j : Nat) : List α := if j = k + 1 then ordered' else ordered
    have allowed (j : Nat) : Orders le rows (family j) := by
      by_cases next : j = k + 1 <;> simpa [family, next]
    have nodup := (partition family allowed).nodup_iff.mpr distinct
    have disjoint := List.pairwise_iff_getElem.mp (List.nodup_flatMap.mp nodup).2 k (k + 1)
      (by simp; omega) (by simpa using inside) (by omega)
    simp only [List.getElem_range, Function.onFun] at disjoint
    have onFirst : a ∈ page size k (family k) := by simpa [family] using here
    have onNext : a ∈ page size (k + 1) (family (k + 1)) := by simpa [family] using there
    exact disjoint (List.mem_map_of_mem onFirst) (List.mem_map_of_mem onNext)
  · intro together ordered orders
    rw [← List.map_flatMap]
    exact (perm_of_together order together positive orders).map out

end TenantLibrary.Lib

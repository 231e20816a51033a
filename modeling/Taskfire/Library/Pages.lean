import Mathlib.Data.List.Sort

/-!
# Pages of a list whose order is open at ties

The values of a list are read page by page, each page from an arrangement of its own.  All that is
known of an arrangement is that it holds the same values and that their keys do not increase, so two
arrangements may differ in the order of values that have the same key.

The pages together hold every value once if no two values of one key stand on the two sides of a
page boundary (`pages_perm`); where two do, a value can be on two pages (`pages_repeat`).  Pages of a
list that only grows while they are read leave nothing out (`mem_pages_of_growing`).
-/

namespace Taskfire.Library

variable {α κ : Type}

/-! ## Pages -/

/-- The values of a page; pages are counted from zero. -/
def page (limit number : Nat) (values : List α) : List α := (values.drop (number * limit)).take limit

/-- The number of pages that hold `total` values. -/
def pageCount (limit total : Nat) : Nat := (total + limit - 1) / limit

/-- The first `count` pages, page `number` from the list `order number`. -/
def pages (limit count : Nat) (order : Nat → List α) : List α :=
  (List.range count).flatMap fun number => page limit number (order number)

theorem lt_pageCount {limit total number : Nat} (positive : 0 < limit) :
    number < pageCount limit total ↔ number * limit < total := by
  rw [pageCount, Nat.lt_iff_add_one_le, Nat.le_div_iff_mul_le positive, Nat.add_mul]
  omega

theorem le_pageCount_mul {limit total : Nat} (positive : 0 < limit) :
    total ≤ pageCount limit total * limit := by
  by_contra beyond
  exact Nat.lt_irrefl _ ((lt_pageCount positive).mpr (Nat.lt_of_not_le beyond))

theorem pages_succ (limit count : Nat) (order : Nat → List α) :
    pages limit (count + 1) order = pages limit count order ++ page limit count (order count) := by
  simp [pages, List.range_succ]

theorem take_append_page (limit number : Nat) (values : List α) :
    values.take (number * limit) ++ page limit number values = values.take ((number + 1) * limit) := by
  rw [page, Nat.add_mul, Nat.one_mul, List.take_add]

theorem mem_page {limit number place : Nat} {values : List α} {value : α}
    (found : values[place]? = some value) (after : number * limit ≤ place)
    (before : place < (number + 1) * limit) : value ∈ page limit number values := by
  rw [Nat.add_mul, Nat.one_mul] at before
  apply List.mem_of_getElem? (i := place - number * limit)
  rw [page, List.getElem?_take_of_lt (by omega), List.getElem?_drop, Nat.add_sub_cancel' after, found]

/-! ## A list that grows while it is read -/

section Growing

variable {limit : Nat} {order : Nat → List α} {value : α}

/-- Insertions only move a value back, so it is on one of the pages read so far or after them. -/
theorem read_or_ahead {count : Nat}
    (grows : ∀ number < count, (order number).Sublist (order (number + 1)))
    (inside : value ∈ order 0) :
    value ∈ pages limit count order ∨ value ∈ (order count).drop (count * limit) := by
  induction count with
  | zero =>
    rw [Nat.zero_mul, List.drop_zero]
    exact .inr inside
  | succ count inductionHypothesis =>
    rw [pages_succ, List.mem_append]
    obtain read | ahead :=
      inductionHypothesis fun number before => grows number (Nat.lt_succ_of_lt before)
    · exact .inl (.inl read)
    · rw [← List.take_append_drop limit ((order count).drop (count * limit)), List.mem_append,
        List.drop_drop] at ahead
      obtain read | ahead := ahead
      · exact .inl (.inr read)
      · rw [Nat.add_mul, Nat.one_mul]
        exact .inr (((grows count (Nat.lt_succ_self count)).drop _).mem ahead)

/-- The pages up to one that reaches the end of the list hold everything the list held at first. -/
theorem mem_pages_of_growing {last : Nat}
    (grows : ∀ number < last, (order number).Sublist (order (number + 1)))
    (reached : (order last).length ≤ (last + 1) * limit) (inside : value ∈ order 0) :
    value ∈ pages limit (last + 1) order := by
  rw [pages_succ, List.mem_append]
  obtain read | ahead := read_or_ahead grows inside
  · exact .inl read
  · rw [Nat.add_mul, Nat.one_mul] at reached
    rw [page, List.take_of_length_le (by rw [List.length_drop]; omega)]
    exact .inr ahead

end Growing

/-! ## Arrangements -/

variable [LinearOrder κ] {key : α → κ}

/-- The same values, the greatest keys first. -/
structure Arranged (key : α → κ) (values order : List α) : Prop where
  perm : order.Perm values
  sorted : (order.map key).SortedGE

/-- The keys of a list, the greatest first. -/
def sortedKeys (key : α → κ) (values : List α) : List κ := (values.map key).insertionSort (· ≥ ·)

/-- The entries on the two sides of position `place` are there and equal. -/
def Tied (keys : List κ) (place : Nat) : Prop :=
  0 < place ∧ place < keys.length ∧ keys[place - 1]? = keys[place]?

instance (keys : List κ) (place : Nat) : Decidable (Tied keys place) :=
  inferInstanceAs (Decidable (_ ∧ _ ∧ _))

/-- Sorts the values; those of one key keep their order. -/
def arrange (key : α → κ) (values : List α) : List α :=
  values.insertionSort fun left right => key left ≥ key right

theorem arranged_arrange (key : α → κ) (values : List α) :
    Arranged key values (arrange key values) := by
  refine ⟨List.perm_insertionSort _ values, ?_⟩
  apply List.Pairwise.sortedGE
  rw [List.pairwise_map]
  have total : Std.Total fun left right : α => key left ≥ key right :=
    ⟨fun left right => le_total (key right) (key left)⟩
  have transitive : IsTrans α fun left right : α => key left ≥ key right :=
    ⟨fun _ _ _ first second => le_trans second first⟩
  exact List.pairwise_insertionSort _ values

variable {values order order' : List α}

/-- All arrangements have the same keys at the same places. -/
theorem Arranged.keys (arranged : Arranged key values order) :
    order.map key = sortedKeys key values := by
  apply List.Perm.eq_of_sortedGE arranged.sorted
  · exact (List.pairwise_insertionSort (· ≥ ·) (values.map key)).sortedGE
  · exact (arranged.perm.map key).trans (List.perm_insertionSort _ _).symm

theorem Arranged.keys_length (arranged : Arranged key values order) :
    (sortedKeys key values).length = order.length := by
  rw [← arranged.keys, List.length_map]

/-! ## Boundaries without a tie -/

theorem key_le_of_sorted (sorted : (order.map key).SortedGE) {i j : Nat} (ordered : i ≤ j)
    (bound : j < order.length) : key order[j] ≤ key order[i] := by
  have compared : (order.map key).get ⟨j, by simpa using bound⟩ ≤
      (order.map key).get ⟨i, by simpa using Nat.lt_of_le_of_lt ordered bound⟩ :=
    sorted.antitone_get ordered
  simpa using compared

/-- The values before a place with different keys on its sides are those with the greater keys. -/
theorem take_eq_filter (sorted : (order.map key).SortedGE) {place : Nat} (positive : 0 < place)
    {high low : κ} (last : (order.map key)[place - 1]? = some high)
    (next : (order.map key)[place]? = some low) (apart : high ≠ low) :
    order.take place = order.filter fun value => high ≤ key value := by
  rw [List.getElem?_map, Option.map_eq_some_iff] at last next
  obtain ⟨lastValue, lastFound, rfl⟩ := last
  obtain ⟨nextValue, nextFound, rfl⟩ := next
  obtain ⟨lastBound, rfl⟩ := List.getElem?_eq_some_iff.mp lastFound
  obtain ⟨nextBound, rfl⟩ := List.getElem?_eq_some_iff.mp nextFound
  have strict : key order[place] < key order[place - 1] :=
    lt_of_le_of_ne (key_le_of_sorted sorted (Nat.sub_le place 1) nextBound) apart.symm
  have before : (order.take place).filter (fun value => key order[place - 1] ≤ key value) =
      order.take place := by
    rw [List.filter_eq_self]
    intro value taken
    obtain ⟨i, bound, rfl⟩ := List.mem_take_iff_getElem.mp taken
    exact decide_eq_true (key_le_of_sorted sorted (by omega) lastBound)
  have after : (order.drop place).filter (fun value => key order[place - 1] ≤ key value) = [] := by
    rw [List.filter_eq_nil_iff]
    intro value dropped
    obtain ⟨i, bound, rfl⟩ := List.mem_drop_iff_getElem.mp dropped
    rw [decide_eq_true_eq, not_le]
    exact lt_of_le_of_lt (key_le_of_sorted sorted (Nat.le_add_right place i) (by omega)) strict
  calc order.take place
      = (order.take place).filter (fun value => key order[place - 1] ≤ key value) ++
          (order.drop place).filter (fun value => key order[place - 1] ≤ key value) := by
        rw [before, after, List.append_nil]
    _ = order.filter (fun value => key order[place - 1] ≤ key value) := by
        rw [← List.filter_append, List.take_append_drop]

/-- Two arrangements have the same values before a place without a tie. -/
theorem Arranged.take_perm (first : Arranged key values order) (second : Arranged key values order')
    {place : Nat} (untied : ¬ Tied (sortedKeys key values) place) :
    (order.take place).Perm (order'.take place) := by
  have permuted : order.Perm order' := first.perm.trans second.perm.symm
  rcases Nat.eq_zero_or_pos place with zero | positive
  · subst zero
    exact .refl _
  · rcases Nat.lt_or_ge place order.length with inside | beyond
    · have bound : place < (sortedKeys key values).length := by rwa [first.keys_length]
      have last := List.getElem?_eq_getElem (Nat.lt_of_le_of_lt (Nat.sub_le place 1) bound)
      have next := List.getElem?_eq_getElem bound
      have apart : (sortedKeys key values)[place - 1] ≠ (sortedKeys key values)[place] := by
        intro same
        exact untied ⟨positive, bound, by rw [last, next, same]⟩
      rw [take_eq_filter first.sorted positive (by rw [first.keys, last]) (by rw [first.keys, next])
        apart, take_eq_filter second.sorted positive (by rw [second.keys, last])
        (by rw [second.keys, next]) apart]
      exact permuted.filter _
    · rw [List.take_of_length_le beyond, List.take_of_length_le (permuted.length_eq ▸ beyond)]
      exact permuted

/-- No page boundary separates two values of one key. -/
def Untied (key : α → κ) (limit : Nat) (values : List α) : Prop :=
  ∀ number, ¬ Tied (sortedKeys key values) (number * limit)

variable {limit : Nat}

theorem pages_take_perm (untied : Untied key limit values) (arranged : Arranged key values order)
    {orders : Nat → List α} (each : ∀ number, Arranged key values (orders number)) (count : Nat) :
    (pages limit count orders).Perm (order.take (count * limit)) := by
  induction count with
  | zero => simp [pages]
  | succ count inductionHypothesis =>
    rw [pages_succ]
    have started : (pages limit count orders).Perm ((orders count).take (count * limit)) :=
      inductionHypothesis.trans (arranged.take_perm (each count) (untied count))
    apply (started.append_right _).trans
    rw [take_append_page]
    exact (each count).take_perm arranged (untied (count + 1))

/-- Where no boundary separates two values of one key, the pages are the values. -/
theorem pages_perm (positive : 0 < limit) (untied : Untied key limit values)
    {orders : Nat → List α} (each : ∀ number, Arranged key values (orders number)) :
    (pages limit (pageCount limit values.length) orders).Perm values := by
  have arranged := arranged_arrange key values
  apply (pages_take_perm untied arranged each _).trans
  rw [List.take_of_length_le (arranged.perm.length_eq ▸ le_pageCount_mul positive)]
  exact arranged.perm

/-! ## Boundaries with a tie -/

/-- Exchanges the values on the two sides of a place if they have the same key. -/
def exchange (key : α → κ) (place : Nat) (order : List α) : List α :=
  match order.drop (place - 1) with
  | last :: next :: rest =>
    if key last = key next then order.take (place - 1) ++ next :: last :: rest else order
  | _ => order

/-- With a tie at the place, `exchange` does exchange. -/
theorem exchange_of_tied {place : Nat} (tied : Tied (order.map key) place) :
    ∃ last next rest, key last = key next ∧
      order = order.take (place - 1) ++ last :: next :: rest ∧
      exchange key place order = order.take (place - 1) ++ next :: last :: rest := by
  obtain ⟨positive, inside, same⟩ := tied
  rw [List.length_map] at inside
  have dropped : order.drop (place - 1) = order[place - 1] :: order[place] :: order.drop (place + 1) := by
    rw [List.drop_eq_getElem_cons (by omega), Nat.sub_add_cancel positive,
      List.drop_eq_getElem_cons inside]
  have keys : key order[place - 1] = key order[place] := by
    rw [List.getElem?_map, List.getElem?_map, List.getElem?_eq_getElem inside,
      List.getElem?_eq_getElem (by omega)] at same
    simpa using same
  refine ⟨order[place - 1], order[place], order.drop (place + 1), keys, ?_, ?_⟩
  · rw [← dropped, List.take_append_drop]
  · simp only [exchange, dropped, if_pos keys]

theorem Arranged.exchange (arranged : Arranged key values order) (place : Nat) :
    Arranged key values (exchange key place order) := by
  unfold Library.exchange
  split
  · next last next rest dropped =>
    split
    · next same =>
      have whole : order = order.take (place - 1) ++ last :: next :: rest := by
        rw [← dropped, List.take_append_drop]
      refine ⟨?_, ?_⟩
      · refine List.Perm.trans ?_ arranged.perm
        conv_rhs => rw [whole]
        exact (List.Perm.swap last next rest).append_left _
      · have keys : (order.take (place - 1) ++ next :: last :: rest).map key = order.map key := by
          conv_rhs => rw [whole]
          simp only [List.map_append, List.map_cons, same]
        rw [keys]
        exact arranged.sorted
    · exact arranged
  · exact arranged

/-- Where a boundary separates two values of one key and the pages after it come from the exchanged
list, a value is on two pages. -/
theorem pages_repeat (positive : 0 < limit) (arranged : Arranged key values order) {number : Nat}
    (tied : Tied (sortedKeys key values) (number * limit)) :
    ¬ (pages limit (pageCount limit values.length) fun current =>
      if current < number then order else exchange key (number * limit) order).Nodup := by
  have inside : number < pageCount limit values.length := by
    rw [lt_pageCount positive, ← arranged.perm.length_eq, ← arranged.keys_length]
    exact tied.2.1
  rw [← arranged.keys] at tied
  obtain ⟨last, next, rest, -, whole, exchanged⟩ := exchange_of_tied tied
  obtain ⟨before, rfl⟩ : ∃ before, number = before + 1 :=
    Nat.exists_eq_succ_of_ne_zero fun zero => by subst zero; simp [Tied] at tied
  have counted : (order.take ((before + 1) * limit - 1)).length = (before + 1) * limit - 1 := by
    have bound := tied.2.1
    rw [List.length_map] at bound
    rw [List.length_take]
    omega
  have onFirst : last ∈ page limit before order := by
    refine mem_page (?_ : order[(before + 1) * limit - 1]? = some last) ?_ ?_
    · rw [whole, List.getElem?_append_right (by omega), counted, Nat.sub_self]
      rfl
    · rw [Nat.add_mul]
      omega
    · rw [Nat.add_mul]
      omega
  have onNext : last ∈ page limit (before + 1) (exchange key ((before + 1) * limit) order) := by
    refine mem_page (?_ : (exchange key _ order)[(before + 1) * limit]? = some last) ?_ ?_
    · rw [exchanged, List.getElem?_append_right (by omega), counted,
        Nat.sub_sub_self (Nat.mul_pos (Nat.succ_pos before) positive)]
      rfl
    · exact Nat.le_refl _
    · rw [Nat.add_mul (before + 1)]
      omega
  intro distinct
  have apart := (List.nodup_flatMap.mp distinct).2
  rw [List.pairwise_iff_getElem] at apart
  have disjoint := apart before (before + 1) (by rw [List.length_range]; omega)
    (by rw [List.length_range]; omega) (Nat.lt_succ_self before)
  simp only [List.getElem_range, Function.onFun, if_pos (Nat.lt_succ_self before),
    if_neg (Nat.lt_irrefl (before + 1))] at disjoint
  exact disjoint onFirst onNext

end Taskfire.Library

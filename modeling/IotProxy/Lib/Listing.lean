import Mathlib.Tactic
import Mathlib.Data.Finset.Dedup
import Mathlib.Data.Finset.Card
import Mathlib.Data.List.Sort
import Mathlib.Data.List.Dedup

/-!
# Paged listings in sorted order

A listing returns the first `limit` of a collection of items in increasing order, each item once. An
item is on the page exactly when its rank, the number of items below it, is under the limit
(`mem_page_iff`).
-/

namespace Listing

open List

universe u

variable {α : Type u} [LinearOrder α]

def page (limit : ℕ) (items : List α) : List α :=
  (items.dedup.insertionSort (· ≤ ·)).take limit

def rank (items : List α) (item : α) : ℕ :=
  (items.toFinset.filter (· < item)).card

variable {items : List α} {item : α}

theorem find?_eq_some_iff_of_sorted {property : α → Bool} (sorted : items.Pairwise (· ≤ ·)) :
    items.find? property = some item ↔
      item ∈ items ∧ property item ∧ ∀ other ∈ items, property other → item ≤ other := by
  induction items with
  | nil => simp
  | cons first rest ih =>
    rcases pairwise_cons.mp sorted with ⟨least, restSorted⟩
    by_cases holds : property first = true
    · simp only [List.find?_cons, holds, Option.some.injEq, mem_cons, forall_eq_or_imp]
      constructor
      · rintro rfl
        exact ⟨.inl rfl, holds, fun _ => le_rfl, fun other mem _ => least other mem⟩
      · rintro ⟨mem, _, below, _⟩
        rcases mem with rfl | mem
        · rfl
        · exact le_antisymm (least item mem) (below trivial)
    · simp only [List.find?_cons, holds, ih restSorted, mem_cons, forall_eq_or_imp]
      constructor
      · rintro ⟨mem, itemHolds, below⟩
        exact ⟨.inr mem, itemHolds, by simp, below⟩
      · rintro ⟨mem, itemHolds, _, below⟩
        rcases mem with rfl | mem
        · exact absurd itemHolds holds
        · exact ⟨mem, itemHolds, below⟩

theorem sorted_insertionSort_dedup (items : List α) :
    (items.dedup.insertionSort (· ≤ ·)).Pairwise (· < ·) := by
  have sorted := pairwise_insertionSort (· ≤ · : α → α → Prop) items.dedup
  have distinct : (items.dedup.insertionSort (· ≤ ·)).Nodup :=
    (perm_insertionSort _ _).nodup_iff.mpr (nodup_dedup items)
  exact (List.Pairwise.and sorted distinct).imp fun both => lt_of_le_of_ne both.1 both.2

theorem page_sorted (limit : ℕ) (items : List α) : (page limit items).Pairwise (· < ·) :=
  (sorted_insertionSort_dedup items).sublist (take_sublist _ _)

variable {limit : ℕ}

theorem page_ne_nil (positive : 0 < limit) (nonempty : items ≠ []) : page limit items ≠ [] := by
  have length : (items.dedup.insertionSort (· ≤ ·)).length = items.dedup.length := by simp
  rw [page, ne_eq, take_eq_nil_iff, not_or, ← length_eq_zero_iff, length,
    length_eq_zero_iff, dedup_eq_nil]
  exact ⟨positive.ne', nonempty⟩

theorem mem_take_iff_of_sorted (sorted : items.Pairwise (· < ·)) :
    item ∈ items.take limit ↔ item ∈ items ∧ rank items item < limit := by
  induction items generalizing limit with
  | nil => simp
  | cons first rest ih =>
    rcases pairwise_cons.mp sorted with ⟨least, restSorted⟩
    cases limit with
    | zero => simp
    | succ limit =>
      have firstFresh : first ∉ rest := fun mem => lt_irrefl _ (least first mem)
      rw [take_succ_cons, mem_cons, mem_cons, ih restSorted]
      by_cases same : item = first
      · subst same
        have none : rank (item :: rest) item = 0 := by
          simp only [rank, Finset.card_eq_zero, Finset.filter_eq_empty_iff,
            mem_toFinset, mem_cons, not_lt]
          rintro other (rfl | mem)
          · exact le_rfl
          · exact (least other mem).le
        simp [none]
      · simp only [same, false_or]
        refine and_congr_right fun mem => ?_
        have step : rank (first :: rest) item = rank rest item + 1 := by
          simp only [rank, toFinset_cons]
          rw [Finset.filter_insert, if_pos (least item mem), Finset.card_insert_of_notMem]
          simp [firstFresh]
        omega

theorem mem_page_iff : item ∈ page limit items ↔ item ∈ items ∧ rank items item < limit := by
  have sameItems : (items.dedup.insertionSort (· ≤ ·)).toFinset = items.toFinset := by
    ext other
    simp
  rw [page, mem_take_iff_of_sorted (sorted_insertionSort_dedup items)]
  simp [rank, sameItems]

theorem rank_le_rank {lower upper : α} (le : lower ≤ upper) :
    rank items lower ≤ rank items upper := by
  apply Finset.card_le_card
  intro other mem
  simp only [Finset.mem_filter] at mem ⊢
  exact ⟨mem.1, mem.2.trans_le le⟩

theorem rank_eq_card {below : Finset α}
    (members : ∀ other, other ∈ below ↔ other ∈ items ∧ other < item) :
    rank items item = below.card := by
  rw [rank]
  congr 1
  ext other
  simp [members]

theorem rank_cons_of_le {other : α} (le : item ≤ other) :
    rank (other :: items) item = rank items item := by
  simp only [rank, toFinset_cons]
  rw [Finset.filter_insert, if_neg (not_lt.mpr le)]

theorem find?_page_eq_some_iff {property : α → Bool} :
    (page limit items).find? property = some item ↔
      item ∈ items ∧ rank items item < limit ∧ property item ∧
        ∀ other ∈ items, property other → item ≤ other := by
  have sorted : (page limit items).Pairwise (· ≤ ·) :=
    (page_sorted limit items).imp le_of_lt
  rw [find?_eq_some_iff_of_sorted sorted, mem_page_iff, and_assoc]
  refine and_congr_right fun _ => and_congr_right fun onPage => and_congr_right fun _ => ?_
  constructor
  · intro least other mem holds
    rcases le_total item other with le | le
    · exact le
    · exact least other (mem_page_iff.mpr ⟨mem, (rank_le_rank le).trans_lt onPage⟩) holds
  · intro least other mem holds
    exact least other (mem_page_iff.mp mem).1 holds

end Listing

import Mathlib.Data.List.Nodup
import Mathlib.Tactic

/-!
# Tables

A table is a list of rows in which no two rows have the same key. A row is looked up by its key,
changed in place, replaced or dropped.
-/

namespace Table

open List

universe u v

variable {Row : Type u} {Key : Type v} (key : Row → Key)

def Distinct (rows : List Row) : Prop :=
  (rows.map key).Nodup

variable {key} {rows : List Row}

theorem distinct_nil : Distinct key [] := nodup_nil

theorem Distinct.of_sublist {fewer : List Row} (distinct : Distinct key rows)
    (sublist : fewer.Sublist rows) : Distinct key fewer :=
  (sublist.map key).nodup distinct

theorem Distinct.filter (distinct : Distinct key rows) (keeps : Row → Bool) :
    Distinct key (rows.filter keeps) :=
  distinct.of_sublist filter_sublist

theorem Distinct.perm {others : List Row} (distinct : Distinct key rows)
    (same : others.Perm rows) : Distinct key others :=
  (same.map key).nodup_iff.mpr distinct

theorem Distinct.eq_of_mem (distinct : Distinct key rows) {left right : Row}
    (leftMem : left ∈ rows) (rightMem : right ∈ rows) (same : key left = key right) :
    left = right :=
  inj_on_of_nodup_map distinct leftMem rightMem same

variable [DecidableEq Key]

def find (key : Row → Key) (rows : List Row) (name : Key) : Option Row :=
  rows.find? fun row => key row = name

def modify (key : Row → Key) (rows : List Row) (name : Key) (change : Row → Row) : List Row :=
  rows.map fun row => if key row = name then change row else row

variable {name other : Key} {row : Row} {change : Row → Row}

theorem key_of_find (found : find key rows name = some row) : key row = name := by
  simpa using List.find?_some found

theorem mem_of_find (found : find key rows name = some row) : row ∈ rows :=
  mem_of_find?_eq_some found

theorem find_eq_none : find key rows name = none ↔ ∀ row ∈ rows, key row ≠ name := by
  simp [find]

theorem Distinct.find_eq_some (distinct : Distinct key rows) :
    find key rows name = some row ↔ row ∈ rows ∧ key row = name := by
  constructor
  · intro found
    exact ⟨mem_of_find found, key_of_find found⟩
  · rintro ⟨mem, rfl⟩
    cases found : find key rows (key row) with
    | none => exact absurd rfl (find_eq_none.mp found row mem)
    | some first =>
      rw [distinct.eq_of_mem (mem_of_find found) mem (key_of_find found)]

theorem Distinct.cons (distinct : Distinct key rows) (fresh : find key rows (key row) = none) :
    Distinct key (row :: rows) := by
  rw [Distinct, map_cons, nodup_cons]
  refine ⟨?_, distinct⟩
  rw [mem_map]
  rintro ⟨old, mem, same⟩
  exact find_eq_none.mp fresh old mem same

theorem key_modified (keeps : ∀ row, key row = name → key (change row) = name) (row : Row) :
    key (if key row = name then change row else row) = key row := by
  by_cases here : key row = name
  · rw [if_pos here, keeps row here, here]
  · rw [if_neg here]

theorem map_key_modify (keeps : ∀ row, key row = name → key (change row) = name) :
    (modify key rows name change).map key = rows.map key := by
  rw [modify, map_map]
  exact map_congr_left fun row _ => key_modified keeps row

theorem Distinct.modify (distinct : Distinct key rows)
    (keeps : ∀ row, key row = name → key (change row) = name) :
    Distinct key (modify key rows name change) := by
  rw [Distinct, map_key_modify keeps]
  exact distinct

@[simp]
theorem length_modify : (modify key rows name change).length = rows.length :=
  length_map ..

theorem find_modify_self (keeps : ∀ row, key row = name → key (change row) = name) :
    find key (modify key rows name change) name = (find key rows name).map change := by
  induction rows with
  | nil => rfl
  | cons row rows ih =>
    simp only [find, modify, map_cons, List.find?_cons] at ih ⊢
    by_cases here : key row = name
    · simp [here, keeps row here]
    · simpa [here] using ih

theorem find_modify_of_ne (keeps : ∀ row, key row = name → key (change row) = name)
    (elsewhere : other ≠ name) :
    find key (modify key rows name change) other = find key rows other := by
  induction rows with
  | nil => rfl
  | cons row rows ih =>
    simp only [find, modify, map_cons, List.find?_cons] at ih ⊢
    by_cases here : key row = name
    · simpa [here, keeps row here, elsewhere.symm] using ih
    · simp only [here, if_false]
      cases decide (key row = other) with
      | true => rfl
      | false => exact ih

theorem modify_of_absent (absent : find key rows name = none) :
    modify key rows name change = rows := by
  rw [modify, map_congr_left (g := id) ?_, map_id]
  intro row mem
  rw [if_neg (find_eq_none.mp absent row mem), id]

theorem Distinct.exists_perm_modify (distinct : Distinct key rows)
    (found : find key rows name = some row) :
    ∃ rest, rows.Perm (row :: rest) ∧
      ∀ change, (Table.modify key rows name change).Perm (change row :: rest) := by
  induction rows with
  | nil => simp [find] at found
  | cons first rows ih =>
    rw [Distinct, map_cons, nodup_cons] at distinct
    by_cases here : key first = name
    · have isFirst : first = row := by simpa [find, here] using found
      subst isFirst
      have absent : find key rows name = none := by
        rw [find_eq_none]
        intro later mem same
        exact distinct.1 (mem_map.mpr ⟨later, mem, same.trans here.symm⟩)
      refine ⟨rows, .refl _, fun change => ?_⟩
      have same : Table.modify key rows name change = rows := modify_of_absent absent
      rw [Table.modify, map_cons, if_pos here, ← Table.modify, same]
    · have later : find key rows name = some row := by simpa [find, here] using found
      obtain ⟨rest, whole, changed⟩ := ih distinct.2 later
      refine ⟨first :: rest, (whole.cons first).trans (.swap ..), fun change => ?_⟩
      rw [Table.modify, map_cons, if_neg here, ← Table.modify]
      exact ((changed change).cons first).trans (.swap ..)

theorem Distinct.countP_modify (distinct : Distinct key rows) (holds : Row → Bool)
    (found : find key rows name = some row) :
    (Table.modify key rows name change).countP holds + (holds row).toNat =
      rows.countP holds + (holds (change row)).toNat := by
  obtain ⟨rest, whole, changed⟩ := distinct.exists_perm_modify found
  rw [(changed change).countP_eq, whole.countP_eq, countP_cons, countP_cons]
  cases holds row <;> cases holds (change row) <;> simp

theorem countP_filter_of_imp {holds keeps : Row → Bool}
    (kept : ∀ row ∈ rows, holds row = true → keeps row = true) :
    (rows.filter keeps).countP holds = rows.countP holds := by
  rw [countP_filter]
  apply countP_congr
  intro row mem
  constructor
  · intro both
    exact (Bool.and_eq_true _ _ ▸ both).1
  · intro counted
    rw [counted, kept row mem counted]
    rfl

theorem Distinct.find_filter (distinct : Distinct key rows) {keeps : Row → Bool}
    (found : find key rows name = some row) (kept : keeps row = true) :
    find key (rows.filter keeps) name = some row := by
  rw [(distinct.filter keeps).find_eq_some, mem_filter]
  exact ⟨⟨mem_of_find found, kept⟩, key_of_find found⟩

theorem find_filter_eq_none {keeps : Row → Bool} (absent : find key rows name = none) :
    find key (rows.filter keeps) name = none := by
  rw [find_eq_none] at absent ⊢
  intro row mem
  exact absent row (mem_of_mem_filter mem)

theorem find_drop_of_ne (elsewhere : other ≠ name) :
    find key (rows.filter fun row => key row ≠ name) other = find key rows other := by
  rw [find, find, List.find?_filter]
  congr 1
  funext row
  by_cases here : key row = other
  · simp [here, elsewhere]
  · simp [here]

theorem Distinct.find_perm {others : List Row} (distinct : Distinct key rows)
    (same : others.Perm rows) (name : Key) : find key others name = find key rows name := by
  ext row
  rw [(distinct.perm same).find_eq_some, distinct.find_eq_some, same.mem_iff]

end Table

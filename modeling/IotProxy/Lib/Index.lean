import IotProxy.Lib.Table

/-!
# Indexes of a collection

A collection of references is indexed by keys: in a map, or in buckets (`Filed`). A map from keys to
references describes the collection if its entries are exactly the pairs of a key and the reference
that has it (`Describes`).
-/

namespace Index

open List

universe u v

variable {Ref : Type u} {Key : Type v}

/-- The entries of `index` are the pairs of a key and the reference of `refs` that has it. -/
def Describes (index : Key → Option Ref) (has : Ref → Key → Prop) (refs : List Ref) : Prop :=
  ∀ key ref, index key = some ref ↔ ref ∈ refs ∧ has ref key

section Describes

variable {index changed : Key → Option Ref} {has other : Ref → Key → Prop} {refs others : List Ref}
  {ref : Ref}

theorem Describes.congr (describes : Describes index has refs) (same : others.Perm refs)
    (agree : ∀ ref ∈ refs, ∀ key, other ref key ↔ has ref key) :
    Describes index other others := by
  intro key ref
  rw [describes key ref, same.mem_iff]
  constructor
  · rintro ⟨mem, holds⟩
    exact ⟨mem, (agree ref mem key).mpr holds⟩
  · rintro ⟨mem, holds⟩
    exact ⟨mem, (agree ref mem key).mp holds⟩

theorem Describes.insert (describes : Describes index has refs)
    (entered : ∀ key, has ref key → changed key = some ref)
    (kept : ∀ key, ¬has ref key → changed key = index key)
    (exclusive : ∀ old ∈ refs, ∀ key, has old key → ¬has ref key) :
    Describes changed has (ref :: refs) := by
  intro key old
  rw [mem_cons]
  by_cases own : has ref key
  · rw [entered key own, Option.some_inj]
    constructor
    · rintro rfl
      exact ⟨.inl rfl, own⟩
    · rintro ⟨rfl | mem, holds⟩
      · rfl
      · exact (exclusive old mem key holds own).elim
  · rw [kept key own, describes key old]
    constructor
    · rintro ⟨mem, holds⟩
      exact ⟨.inr mem, holds⟩
    · rintro ⟨rfl | mem, holds⟩
      · exact (own holds).elim
      · exact ⟨mem, holds⟩

theorem Describes.remove (describes : Describes index has (ref :: refs))
    (removed : ∀ key, has ref key → changed key = none)
    (kept : ∀ key, ¬has ref key → changed key = index key)
    (exclusive : ∀ old ∈ refs, ∀ key, has old key → ¬has ref key) :
    Describes changed has refs := by
  intro key old
  by_cases own : has ref key
  · rw [removed key own]
    constructor
    · intro impossible
      cases impossible
    · rintro ⟨mem, holds⟩
      exact (exclusive old mem key holds own).elim
  · rw [kept key own, describes key old, mem_cons]
    constructor
    · rintro ⟨rfl | mem, holds⟩
      · exact (own holds).elim
      · exact ⟨mem, holds⟩
    · rintro ⟨mem, holds⟩
      exact ⟨.inr mem, holds⟩

end Describes

section Buckets

def all (buckets : List (Key × List Ref)) : List Ref := buckets.flatMap Prod.snd

structure Filed (keyOf : Ref → Key) (buckets : List (Key × List Ref)) : Prop where
  distinct : Table.Distinct Prod.fst buckets
  keys : ∀ bucket ∈ buckets, ∀ ref ∈ bucket.2, keyOf ref = bucket.1

variable {buckets : List (Key × List Ref)} {key : Key} {ref : Ref} {keyOf : Ref → Key}

theorem mem_all : ref ∈ all buckets ↔ ∃ bucket ∈ buckets, ref ∈ bucket.2 := mem_flatMap

theorem filed_nil : Filed keyOf ([] : List (Key × List Ref)) :=
  ⟨Table.distinct_nil, by simp⟩

theorem Filed.congr {other : Ref → Key} (filed : Filed keyOf buckets)
    (agree : ∀ ref ∈ all buckets, other ref = keyOf ref) : Filed other buckets where
  distinct := filed.distinct
  keys bucket mem ref refMem := by
    rw [agree ref (mem_all.mpr ⟨bucket, mem, refMem⟩)]
    exact filed.keys bucket mem ref refMem

theorem all_filter {keeps : Key × List Ref → Bool}
    (empty : ∀ bucket ∈ buckets, keeps bucket = false → bucket.2 = []) :
    all (buckets.filter keeps) = all buckets := by
  induction buckets with
  | nil => rfl
  | cons bucket buckets ih =>
    have rest := ih fun other mem => empty other (mem_cons_of_mem _ mem)
    cases kept : keeps bucket with
    | true => simp_all [all]
    | false =>
      have none := empty bucket mem_cons_self kept
      simp_all [all]

variable [DecidableEq Key]

def reserve (buckets : List (Key × List Ref)) (key : Key) : List (Key × List Ref) :=
  match Table.find Prod.fst buckets key with
  | some _ => buckets
  | none => buckets ++ [(key, [])]

def push (buckets : List (Key × List Ref)) (key : Key) (ref : Ref) : List (Key × List Ref) :=
  Table.modify Prod.fst buckets key fun bucket => (bucket.1, bucket.2 ++ [ref])

theorem all_reserve : all (reserve buckets key) = all buckets := by
  unfold reserve
  split
  · rfl
  · simp [all]

theorem exists_find_reserve :
    ∃ bucket, Table.find Prod.fst (reserve buckets key) key = some bucket := by
  rw [← Option.isSome_iff_exists]
  unfold reserve
  split
  · next found =>
    rw [found]
    rfl
  · simp [Table.find]

theorem Filed.reserve (filed : Filed keyOf buckets) : Filed keyOf (reserve buckets key) := by
  cases found : Table.find Prod.fst buckets key with
  | some bucket =>
    rw [Index.reserve, found]
    exact filed
  | none =>
    rw [Index.reserve, found]
    constructor
    · have ends : (buckets ++ [(key, ([] : List Ref))]).Perm ((key, []) :: buckets) :=
        perm_append_singleton ..
      exact Table.Distinct.perm (Table.Distinct.cons filed.distinct found) ends
    · intro bucket mem ref refMem
      rcases mem_append.mp mem with old | new
      · exact filed.keys bucket old ref refMem
      · rw [mem_singleton.mp new] at refMem
        cases refMem

theorem Filed.all_modify (filed : Filed keyOf buckets) {bucket : Key × List Ref}
    (found : Table.find Prod.fst buckets key = some bucket) :
    ∃ rest, (all buckets).Perm (bucket.2 ++ rest) ∧ ∀ change : Key × List Ref → Key × List Ref,
      (all (Table.modify Prod.fst buckets key change)).Perm ((change bucket).2 ++ rest) := by
  obtain ⟨rest, whole, changed⟩ := filed.distinct.exists_perm_modify found
  exact ⟨all rest, whole.flatMap_right _, fun change => (changed change).flatMap_right _⟩

theorem Filed.all_push (filed : Filed keyOf buckets) {bucket : Key × List Ref}
    (found : Table.find Prod.fst buckets key = some bucket) (ref : Ref) :
    (all (push buckets key ref)).Perm (ref :: all buckets) := by
  obtain ⟨rest, whole, changed⟩ := filed.all_modify found
  refine (changed _).trans (.trans ?_ (whole.cons ref).symm)
  rw [append_assoc]
  exact perm_middle

theorem Filed.push (filed : Filed keyOf buckets) (own : keyOf ref = key) :
    Filed keyOf (push buckets key ref) := by
  constructor
  · exact filed.distinct.modify fun bucket same => same
  · intro bucket mem old oldMem
    obtain ⟨before, beforeMem, rfl⟩ := mem_map.mp mem
    split at oldMem
    · next here =>
      rw [if_pos here]
      rcases mem_append.mp oldMem with inList | new
      · exact filed.keys before beforeMem old inList
      · rw [mem_singleton.mp new, own, here]
    · next elsewhere =>
      rw [if_neg elsewhere]
      exact filed.keys before beforeMem old oldMem

variable [DecidableEq Ref]

def discard (buckets : List (Key × List Ref)) (key : Key) (ref : Ref) : List (Key × List Ref) :=
  (Table.modify Prod.fst buckets key fun bucket => (bucket.1, bucket.2.erase ref)).filter
    fun bucket => ¬(bucket.1 = key ∧ bucket.2 = [])

theorem Filed.all_discard (filed : Filed keyOf buckets) (mem : ref ∈ all buckets) :
    (all buckets).Perm (ref :: all (discard buckets (keyOf ref) ref)) := by
  obtain ⟨bucket, bucketMem, inBucket⟩ := mem_all.mp mem
  have found : Table.find Prod.fst buckets (keyOf ref) = some bucket :=
    filed.distinct.find_eq_some.mpr ⟨bucketMem, (filed.keys bucket bucketMem ref inBucket).symm⟩
  obtain ⟨rest, whole, changed⟩ := filed.all_modify found
  have kept : all (discard buckets (keyOf ref) ref) = all (Table.modify Prod.fst buckets (keyOf ref)
      fun bucket => (bucket.1, bucket.2.erase ref)) := by
    apply all_filter
    intro other _ dropped
    rw [decide_eq_false_iff_not, not_not] at dropped
    exact dropped.2
  rw [kept]
  refine whole.trans (.trans ?_ ((changed _).cons ref).symm)
  exact (perm_cons_erase inBucket).append_right rest

theorem Filed.discard (filed : Filed keyOf buckets) : Filed keyOf (discard buckets key ref) := by
  have shorter : Table.Distinct Prod.fst (Table.modify Prod.fst buckets key fun bucket =>
      (bucket.1, bucket.2.erase ref)) := filed.distinct.modify fun bucket same => same
  constructor
  · exact shorter.filter _
  · intro bucket mem old oldMem
    obtain ⟨before, beforeMem, rfl⟩ := mem_map.mp (mem_of_mem_filter mem)
    split at oldMem
    · next here =>
      rw [if_pos here]
      exact filed.keys before beforeMem old (mem_of_mem_erase oldMem)
    · next elsewhere =>
      rw [if_neg elsewhere]
      exact filed.keys before beforeMem old oldMem

end Buckets

end Index

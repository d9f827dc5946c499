import IotProxy.Tcmalloc.PageHeap

/-!
# The invariant of the page heap

`Good heap hand` says that the spans of the heap tile its blocks and that its indexes and counters
describe the active and the cached spans. During a call, `hand` are the spans that the call has
taken and that are neither active nor cached. A call is a sequence of moves: spans move between the
cache, the hand of the call and the active spans, and a span in the hand is split or takes over
another one.
-/

namespace IotProxy.Tcmalloc

open List hiding all
open Tiling Index Function PageHeap

namespace Extent

def tile (extent : Extent) : Tile :=
  ⟨⟨extent.startPage, extent.pageCount⟩,
    ⟨pageIdOf extent.allocationBase, pageIdOf extent.allocationBytes⟩⟩

structure Aligned (extent : Extent) : Prop where
  start : extent.start = extent.startPage * kPageSize
  bytes : extent.bytes = extent.pageCount * kPageSize
  base : extent.allocationBase = pageIdOf extent.allocationBase * kPageSize
  allocation : extent.allocationBytes = pageIdOf extent.allocationBytes * kPageSize

end Extent

theorem kPageSize_pos : 0 < kPageSize := by decide

theorem pageIdOf_mul (page : ℕ) : pageIdOf (page * kPageSize) = page :=
  Nat.mul_div_cancel _ kPageSize_pos

theorem mul_kPageSize_inj {left right : ℕ} : left * kPageSize = right * kPageSize ↔ left = right :=
  Nat.mul_left_inj kPageSize_pos.ne'

theorem canMerge_iff {left right : Span} (leftAligned : left.Aligned) (rightAligned : right.Aligned) :
    canMerge left right = true ↔ left.tile.block = right.tile.block ∧
      left.tile.stretch.stop = right.tile.stretch.first := by
  have bases : left.allocationBase = right.allocationBase ↔
      pageIdOf left.allocationBase = pageIdOf right.allocationBase := by
    rw [leftAligned.base, rightAligned.base, mul_kPageSize_inj, pageIdOf_mul, pageIdOf_mul]
  have sizes : left.allocationBytes = right.allocationBytes ↔
      pageIdOf left.allocationBytes = pageIdOf right.allocationBytes := by
    rw [leftAligned.allocation, rightAligned.allocation, mul_kPageSize_inj, pageIdOf_mul,
      pageIdOf_mul]
  have ends : left.start + left.bytes = right.start ↔
      left.startPage + left.pageCount = right.startPage := by
    rw [leftAligned.start, leftAligned.bytes, rightAligned.start, ← Nat.add_mul, mul_kPageSize_inj]
  simp [canMerge, Extent.tile, Stretch.stop, bases, sizes, ends]

theorem isWholeAllocation_iff {span : Span} (aligned : span.Aligned) :
    span.isWholeAllocation = true ↔ span.tile.stretch = span.tile.block := by
  have starts : span.start = span.allocationBase ↔
      span.startPage = pageIdOf span.allocationBase := by
    rw [aligned.start, aligned.base, mul_kPageSize_inj, pageIdOf_mul]
  have sizes : span.bytes = span.allocationBytes ↔
      span.pageCount = pageIdOf span.allocationBytes := by
    rw [aligned.bytes, aligned.allocation, mul_kPageSize_inj, pageIdOf_mul]
  simp [Span.isWholeAllocation, Extent.tile, starts, sizes]

namespace PageHeap

def extent (heap : PageHeap) (ref : SpanRef) : Extent :=
  match heap.objects ref with
  | some span => span.toExtent
  | none => {}

def tile (heap : PageHeap) (ref : SpanRef) : Tile := (heap.extent ref).tile

def bytesOf (heap : PageHeap) (refs : List SpanRef) : ℕ :=
  (refs.map fun ref => (heap.extent ref).bytes).sum

/-- The active spans, the cached ones and those in the hand of the running call. -/
def owned (heap : PageHeap) (hand : List SpanRef) : List SpanRef :=
  heap.spans ++ heap.cached ++ hand

variable {heap other : PageHeap} {hand refs others : List SpanRef} {ref : SpanRef} {span : Span}

theorem extent_eq (found : heap.objects ref = some span) : heap.extent ref = span.toExtent := by
  rw [extent, found]

theorem extent_congr (same : other.objects ref = heap.objects ref) :
    other.extent ref = heap.extent ref := by
  rw [extent, extent, same]

theorem tile_congr (same : other.extent ref = heap.extent ref) : other.tile ref = heap.tile ref := by
  rw [tile, same, tile]

theorem mem_owned : ref ∈ heap.owned hand ↔ ref ∈ heap.spans ∨ ref ∈ heap.cached ∨ ref ∈ hand := by
  rw [owned, mem_append, mem_append, or_assoc]

theorem owned_cons : (heap.owned (ref :: hand)).Perm (ref :: heap.owned hand) := perm_middle

theorem bytesOf_cons : heap.bytesOf (ref :: refs) = (heap.extent ref).bytes + heap.bytesOf refs := by
  simp [bytesOf]

theorem bytesOf_perm (same : others.Perm refs) : heap.bytesOf others = heap.bytesOf refs :=
  (same.map _).sum_eq

theorem bytesOf_congr (agree : ∀ ref ∈ refs, other.extent ref = heap.extent ref) :
    other.bytesOf refs = heap.bytesOf refs := by
  unfold bytesOf
  congr 1
  exact map_congr_left fun ref mem => by rw [agree ref mem]

end PageHeap

def PageHeap.insertCached (heap : PageHeap) (ref : SpanRef) (extent : Extent) : PageHeap :=
  { heap with
    freeSpansByPages := push (reserve heap.freeSpansByPages extent.pageCount) extent.pageCount ref
    cachedStartPageToSpan := Function.update heap.cachedStartPageToSpan extent.startPage (some ref)
    cachedEndPageToSpan := Function.update heap.cachedEndPageToSpan extent.endPage (some ref)
    cachedBytes := heap.cachedBytes + extent.bytes }

/-- The objects are those of `refs`, and these tile the blocks of the system. -/
structure Stored (heap : PageHeap) (refs : List SpanRef) : Prop where
  tiles : Tiles heap.tile refs heap.allocations
  alive : ∀ ref, (heap.objects ref).isSome ↔ ref ∈ refs
  fresh : ∀ ref ∈ refs, ref < heap.nextRef
  aligned : ∀ ref ∈ refs, (heap.extent ref).Aligned
  placed : ∀ block ∈ heap.allocations, 0 < block.first ∧ 0 < block.count

/-- Apart from the objects and the blocks, the heaps are the same. -/
structure SameIndexes (heap other : PageHeap) : Prop where
  spans : other.spans = heap.spans
  pageToSpan : other.pageToSpan = heap.pageToSpan
  freeSpansByPages : other.freeSpansByPages = heap.freeSpansByPages
  cachedStartPageToSpan : other.cachedStartPageToSpan = heap.cachedStartPageToSpan
  cachedEndPageToSpan : other.cachedEndPageToSpan = heap.cachedEndPageToSpan
  activeBytes : other.activeBytes = heap.activeBytes
  cachedBytes : other.cachedBytes = heap.cachedBytes

/-- The leading pages of a span are split from the others, which get an object of their own. -/
structure Split (ref : SpanRef) (span : Span) (needed : ℕ) (heap other : PageHeap) : Prop
    extends SameIndexes heap other where
  found : heap.objects ref = some span
  positive : 0 < needed
  less : needed < span.pageCount
  nextRef : other.nextRef = heap.nextRef + 1
  allocations : other.allocations = heap.allocations
  systemBytes : other.systemBytes = heap.systemBytes
  atRef : other.objects ref = some (span.leading needed)
  atFresh : other.objects heap.nextRef = some (span.remaining needed)
  elsewhere : ∀ old, old ≠ ref → old ≠ heap.nextRef → other.objects old = heap.objects old

/-- A block of the system is added, with a span over it. -/
structure Placed (memory pageCount : ℕ) (span : Span) (heap other : PageHeap) : Prop
    extends SameIndexes heap other where
  positive : 0 < pageCount
  extent : span.toExtent =
    { start := memory, pageCount, bytes := pageCount * kPageSize, allocationBase := memory,
      allocationBytes := pageCount * kPageSize }
  nextRef : other.nextRef = heap.nextRef + 1
  allocations : other.allocations = ⟨pageIdOf memory, pageCount⟩ :: heap.allocations
  systemBytes : other.systemBytes = heap.systemBytes + pageCount * kPageSize
  atFresh : other.objects heap.nextRef = some span
  elsewhere : ∀ old, old ≠ heap.nextRef → other.objects old = heap.objects old

structure Good (heap : PageHeap) (hand : List SpanRef) : Prop where
  stored : Stored heap (heap.owned hand)
  bySize : Filed (fun ref => (heap.extent ref).pageCount) heap.freeSpansByPages
  byStart : Describes heap.cachedStartPageToSpan
    (fun ref page => (heap.extent ref).startPage = page) heap.cached
  byEnd : Describes heap.cachedEndPageToSpan
    (fun ref page => (heap.extent ref).endPage = page) heap.cached
  byPage : Describes heap.pageToSpan (fun ref page => page ∈ (heap.tile ref).stretch) heap.spans
  activeBytes : heap.activeBytes = heap.bytesOf heap.spans
  cachedBytes : heap.cachedBytes = heap.bytesOf heap.cached
  systemBytes : heap.systemBytes = heap.activeBytes + heap.cachedBytes + heap.bytesOf hand

namespace Stored

variable {heap : PageHeap} {refs others : List SpanRef} {ref next : SpanRef}

theorem move {other : PageHeap} (stored : Stored heap refs) (objects : other.objects = heap.objects)
    (nextRef : other.nextRef = heap.nextRef) (allocations : other.allocations = heap.allocations)
    (same : others.Perm refs) : Stored other others where
  tiles := by
    rw [allocations]
    exact stored.tiles.congr same fun ref _ =>
      tile_congr (extent_congr (congrFun objects ref))
  alive ref := by
    rw [objects]
    exact (stored.alive ref).trans same.mem_iff.symm
  fresh ref mem := by
    rw [nextRef]
    exact stored.fresh ref (same.mem_iff.mp mem)
  aligned ref mem := by
    rw [extent_congr (congrFun objects ref)]
    exact stored.aligned ref (same.mem_iff.mp mem)
  placed := by
    rw [allocations]
    exact stored.placed

theorem exists_object (stored : Stored heap refs) (mem : ref ∈ refs) :
    ∃ span, heap.objects ref = some span ∧ span.Aligned ∧ 0 < span.pageCount ∧ span.start ≠ 0 := by
  obtain ⟨span, found⟩ := Option.isSome_iff_exists.mp ((stored.alive ref).mpr mem)
  have same := extent_eq found
  have aligned := stored.aligned ref mem
  have nonempty := stored.tiles.nonempty ref mem
  have inBlock := stored.tiles.inside ref mem _ (Stretch.first_mem nonempty)
  have placed := (stored.placed _ (stored.tiles.home ref mem)).1
  rw [same] at aligned
  simp only [PageHeap.tile, same, Extent.tile, Stretch.mem_def] at nonempty inBlock placed
  refine ⟨span, found, aligned, nonempty, fun null => ?_⟩
  have first : span.startPage = 0 := by simp [Extent.startPage, pageIdOf, null]
  omega

theorem find_block (stored : Stored heap refs) (mem : ref ∈ refs) :
    heap.allocations.find? (fun block => block.first * kPageSize = (heap.extent ref).allocationBase) =
      some (heap.tile ref).block := by
  have home := stored.tiles.home ref mem
  have base : (heap.tile ref).block.first * kPageSize = (heap.extent ref).allocationBase :=
    (stored.aligned ref mem).base.symm
  cases found : heap.allocations.find? fun block =>
      block.first * kPageSize = (heap.extent ref).allocationBase with
  | none =>
    have absent := List.find?_eq_none.mp found _ home
    simp [base] at absent
  | some block =>
    have blockMem := mem_of_find?_eq_some found
    have same : block.first = (heap.tile ref).block.first := by
      have blockBase := List.find?_some found
      rw [decide_eq_true_eq, ← base, mul_kPageSize_inj] at blockBase
      exact blockBase
    have first := Stretch.first_mem (stored.placed _ home).2
    rw [stored.tiles.separate block blockMem _ home _ (same ▸ Stretch.first_mem
      (stored.placed block blockMem).2) first]

section Objects

variable {other : PageHeap} {span left right : Span}

theorem write (stored : Stored heap refs) (found : heap.objects ref = some span)
    (same : left.toExtent = span.toExtent) (nextRef : other.nextRef = heap.nextRef)
    (allocations : other.allocations = heap.allocations) (atRef : other.objects ref = some left)
    (elsewhere : ∀ old, old ≠ ref → other.objects old = heap.objects old) :
    (∀ old, other.extent old = heap.extent old) ∧ Stored other refs := by
  have extents : ∀ old, other.extent old = heap.extent old := by
    intro old
    by_cases here : old = ref
    · rw [here, extent_eq found, extent_eq atRef, same]
    · exact extent_congr (elsewhere old here)
  refine ⟨extents, ?_⟩
  constructor
  case tiles =>
    rw [allocations]
    exact stored.tiles.congr (.refl _) fun old _ => tile_congr (extents old)
  case alive =>
    intro old
    by_cases here : old = ref
    · rw [← stored.alive old, here, found, atRef]
      simp
    · rw [elsewhere old here, stored.alive old]
  case fresh =>
    rw [nextRef]
    exact stored.fresh
  case aligned =>
    intro old mem
    rw [extents]
    exact stored.aligned old mem
  case placed =>
    rw [allocations]
    exact stored.placed

theorem split (stored : Stored heap (ref :: refs)) {needed : ℕ}
    (split : Split ref span needed heap other) :
    (∀ old ∈ refs, other.objects old = heap.objects old) ∧
      Stored other (ref :: heap.nextRef :: refs) := by
  have unused : heap.nextRef ∉ ref :: refs := fun mem => absurd (stored.fresh _ mem) (Nat.lt_irrefl _)
  have absent : ref ∉ refs := (nodup_cons.mp stored.tiles.nodup).1
  have agree : ∀ old ∈ refs, other.objects old = heap.objects old := fun old mem =>
    split.elsewhere old (fun same => absent (same ▸ mem))
      fun same => unused (same ▸ mem_cons_of_mem _ mem)
  have aligned : span.Aligned := extent_eq split.found ▸ stored.aligned ref mem_cons_self
  have rightStart : (span.remaining needed).startPage = span.startPage + needed :=
    Nat.add_mul_div_right _ _ kPageSize_pos
  refine ⟨agree, ?_⟩
  constructor
  case tiles =>
    rw [split.allocations]
    refine stored.tiles.cut unused
      (fun old mem => tile_congr (extent_congr (agree old mem))) ?_ ?_ ?_ ?_ ?_ ?_ ?_
    all_goals
      simp only [PageHeap.tile, extent_eq split.found,
        extent_eq split.atRef, extent_eq split.atFresh, Extent.tile, Stretch.stop]
    · rfl
    · rfl
    · rfl
    · rw [rightStart]
      rfl
    · exact split.positive
    · exact Nat.sub_pos_of_lt split.less
    · exact Nat.add_sub_of_le split.less.le
  case alive =>
    intro old
    by_cases here : old = ref
    · simp [here, split.atRef]
    · by_cases new : old = heap.nextRef
      · simp [new, split.atFresh]
      · rw [split.elsewhere old here new, stored.alive old]
        simp [here, new]
  case fresh =>
    rw [split.nextRef]
    simp only [forall_mem_cons]
    exact ⟨Nat.lt_succ_of_lt (stored.fresh ref mem_cons_self), Nat.lt_succ_self _,
      fun old mem => Nat.lt_succ_of_lt (stored.fresh old (mem_cons_of_mem _ mem))⟩
  case aligned =>
    simp only [forall_mem_cons]
    refine ⟨?_, ?_, fun old mem => ?_⟩
    · rw [extent_eq split.atRef]
      exact ⟨aligned.start, rfl, aligned.base, aligned.allocation⟩
    · rw [extent_eq split.atFresh]
      refine ⟨?_, rfl, aligned.base, aligned.allocation⟩
      rw [rightStart, Nat.add_mul, ← aligned.start]
      rfl
    · rw [extent_congr (agree old mem)]
      exact stored.aligned old (mem_cons_of_mem _ mem)
  case placed =>
    rw [split.allocations]
    exact stored.placed

theorem absorb (stored : Stored heap (ref :: next :: refs)) (found : heap.objects ref = some span)
    (nextFound : heap.objects next = some right) (merge : canMerge span right = true)
    (nextRef : other.nextRef = heap.nextRef) (allocations : other.allocations = heap.allocations)
    (atRef : other.objects ref = some (span.joined right)) (deleted : other.objects next = none)
    (elsewhere : ∀ old, old ≠ ref → old ≠ next → other.objects old = heap.objects old) :
    (∀ old ∈ refs, other.objects old = heap.objects old) ∧ Stored other (ref :: refs) := by
  have nodup := stored.tiles.nodup
  simp only [nodup_cons, mem_cons, not_or] at nodup
  obtain ⟨⟨notNext, refAbsent⟩, nextAbsent, -⟩ := nodup
  have agree : ∀ old ∈ refs, other.objects old = heap.objects old := fun old mem =>
    elsewhere old (fun same => refAbsent (same ▸ mem)) fun same => nextAbsent (same ▸ mem)
  have aligned : span.Aligned := extent_eq found ▸ stored.aligned ref mem_cons_self
  have nextAligned : right.Aligned :=
    extent_eq nextFound ▸ stored.aligned next (by simp)
  obtain ⟨sameBlock, adjacent⟩ := (canMerge_iff aligned nextAligned).mp merge
  refine ⟨agree, ?_⟩
  constructor
  case tiles =>
    rw [allocations]
    refine stored.tiles.join
      (fun old mem => tile_congr (extent_congr (agree old mem))) ?_ ?_ ?_ ?_ ?_
    all_goals
      simp only [PageHeap.tile, extent_eq found, extent_eq atRef, extent_eq nextFound]
    · rfl
    · rfl
    · exact adjacent
    · exact sameBlock
    · rfl
  case alive =>
    intro old
    by_cases here : old = ref
    · simp [here, atRef]
    · by_cases gone : old = next
      · rw [gone, deleted]
        simp [Ne.symm notNext, nextAbsent]
      · rw [elsewhere old here gone, stored.alive old]
        simp [here, gone]
  case fresh =>
    rw [nextRef]
    simp only [forall_mem_cons]
    exact ⟨stored.fresh ref (by simp), fun old mem => stored.fresh old (by simp [mem])⟩
  case aligned =>
    simp only [forall_mem_cons]
    refine ⟨?_, fun old mem => ?_⟩
    · rw [extent_eq atRef]
      refine ⟨aligned.start, ?_, aligned.base, aligned.allocation⟩
      change span.bytes + right.bytes = (span.pageCount + right.pageCount) * kPageSize
      rw [aligned.bytes, nextAligned.bytes, Nat.add_mul]
    · rw [extent_congr (agree old mem)]
      exact stored.aligned old (by simp [mem])
  case placed =>
    rw [allocations]
    exact stored.placed

theorem place (stored : Stored heap refs) {memory pageCount : ℕ}
    (onPage : memory = pageIdOf memory * kPageSize) (notNull : 0 < pageIdOf memory)
    (apart : ∀ block ∈ heap.allocations, block.Apart ⟨pageIdOf memory, pageCount⟩)
    (placed : Placed memory pageCount span heap other) :
    (∀ old ∈ refs, other.objects old = heap.objects old) ∧ Stored other (heap.nextRef :: refs) := by
  have unused : heap.nextRef ∉ refs := fun mem => absurd (stored.fresh _ mem) (Nat.lt_irrefl _)
  have agree : ∀ old ∈ refs, other.objects old = heap.objects old := fun old mem =>
    placed.elsewhere old fun same => unused (same ▸ mem)
  refine ⟨agree, ?_⟩
  constructor
  case tiles =>
    rw [placed.allocations]
    refine stored.tiles.place unused
      (fun old mem => tile_congr (extent_congr (agree old mem))) ?_ placed.positive apart
    rw [PageHeap.tile, extent_eq placed.atFresh, placed.extent, Extent.tile, pageIdOf_mul]
    rfl
  case alive =>
    intro old
    by_cases new : old = heap.nextRef
    · simp [new, placed.atFresh]
    · rw [placed.elsewhere old new, stored.alive old]
      simp [new]
  case fresh =>
    rw [placed.nextRef]
    simp only [forall_mem_cons]
    exact ⟨Nat.lt_succ_self _, fun old mem => Nat.lt_succ_of_lt (stored.fresh old mem)⟩
  case aligned =>
    simp only [forall_mem_cons]
    refine ⟨?_, fun old mem => ?_⟩
    · rw [extent_eq placed.atFresh, placed.extent]
      refine ⟨onPage, rfl, onPage, ?_⟩
      rw [pageIdOf_mul]
    · rw [extent_congr (agree old mem)]
      exact stored.aligned old mem
  case placed =>
    rw [placed.allocations]
    simp only [forall_mem_cons]
    exact ⟨⟨notNull, placed.positive⟩, stored.placed⟩

theorem free (stored : Stored heap (ref :: refs)) (whole : (heap.tile ref).stretch =
      (heap.tile ref).block) (nextRef : other.nextRef = heap.nextRef)
    (allocations : other.allocations = heap.allocations.erase (heap.tile ref).block)
    (deleted : other.objects ref = none)
    (elsewhere : ∀ old, old ≠ ref → other.objects old = heap.objects old) :
    (∀ old ∈ refs, other.objects old = heap.objects old) ∧ Stored other refs := by
  have absent : ref ∉ refs := (nodup_cons.mp stored.tiles.nodup).1
  have agree : ∀ old ∈ refs, other.objects old = heap.objects old := fun old mem =>
    elsewhere old fun same => absent (same ▸ mem)
  refine ⟨agree, ?_⟩
  constructor
  case tiles =>
    rw [allocations]
    exact stored.tiles.remove whole fun old mem =>
      tile_congr (extent_congr (agree old mem))
  case alive =>
    intro old
    by_cases here : old = ref
    · simp [here, deleted, absent]
    · rw [elsewhere old here, stored.alive old]
      simp [here]
  case fresh =>
    rw [nextRef]
    exact fun old mem => stored.fresh old (mem_cons_of_mem _ mem)
  case aligned =>
    intro old mem
    rw [extent_congr (agree old mem)]
    exact stored.aligned old (mem_cons_of_mem _ mem)
  case placed =>
    rw [allocations]
    exact fun block mem => stored.placed block (mem_of_mem_erase mem)

end Objects

end Stored

namespace Good

variable {heap : PageHeap} {hand : List SpanRef} {ref next : SpanRef} {span : Span}

theorem exists_object (good : Good heap hand) (mem : ref ∈ heap.owned hand) :
    ∃ span, heap.objects ref = some span ∧ span.Aligned ∧ 0 < span.pageCount ∧ span.start ≠ 0 :=
  good.stored.exists_object mem

theorem mem_hand : ref ∈ heap.owned (ref :: hand) := by
  rw [mem_owned]
  exact .inr (.inr mem_cons_self)

theorem not_mem (good : Good heap (ref :: hand)) :
    ref ∉ heap.spans ∧ ref ∉ heap.cached ∧ ref ∉ hand := by
  have absent := (nodup_cons.mp (good.stored.tiles.perm owned_cons.symm).nodup).1
  rw [mem_owned] at absent
  tauto

section Tiles

theorem startPage_ne (good : Good heap hand) {left right : SpanRef} (leftMem : left ∈ heap.owned hand)
    (rightMem : right ∈ heap.owned hand) (different : left ≠ right) :
    (heap.extent left).startPage ≠ (heap.extent right).startPage := fun same =>
  different (good.stored.tiles.eq_of_first leftMem rightMem same)

theorem endPage_ne (good : Good heap hand) {left right : SpanRef} (leftMem : left ∈ heap.owned hand)
    (rightMem : right ∈ heap.owned hand) (different : left ≠ right) :
    (heap.extent left).endPage ≠ (heap.extent right).endPage := fun same =>
  different (good.stored.tiles.eq_of_stop leftMem rightMem same)

end Tiles

section Objects

variable {other : PageHeap} {changed : List SpanRef}

theorem rewrite (good : Good heap hand) (same : SameIndexes heap other)
    (agree : ∀ ref ∈ heap.spans ++ heap.cached, other.extent ref = heap.extent ref)
    (stored : Stored other (heap.owned changed))
    (bytes : other.systemBytes = heap.activeBytes + heap.cachedBytes + other.bytesOf changed) :
    Good other changed := by
  have active : ∀ ref ∈ heap.spans, other.extent ref = heap.extent ref := fun ref mem =>
    agree ref (mem_append_left _ mem)
  have cached : ∀ ref ∈ heap.cached, other.extent ref = heap.extent ref := fun ref mem =>
    agree ref (mem_append_right _ mem)
  have sameCached : other.cached = heap.cached := by
    rw [PageHeap.cached, same.freeSpansByPages, PageHeap.cached]
  constructor
  case stored =>
    rw [PageHeap.owned, same.spans, sameCached]
    exact stored
  case bySize =>
    rw [same.freeSpansByPages]
    exact good.bySize.congr fun ref mem => by rw [cached ref mem]
  case byStart =>
    rw [same.cachedStartPageToSpan, sameCached]
    exact good.byStart.congr (.refl _) fun ref mem page => by rw [cached ref mem]
  case byEnd =>
    rw [same.cachedEndPageToSpan, sameCached]
    exact good.byEnd.congr (.refl _) fun ref mem page => by rw [cached ref mem]
  case byPage =>
    rw [same.pageToSpan, same.spans]
    exact good.byPage.congr (.refl _) fun ref mem page => by
      rw [tile_congr (active ref mem)]
  case activeBytes =>
    rw [same.activeBytes, same.spans, bytesOf_congr active]
    exact good.activeBytes
  case cachedBytes =>
    rw [same.cachedBytes, sameCached, bytesOf_congr cached]
    exact good.cachedBytes
  case systemBytes =>
    rw [same.activeBytes, same.cachedBytes]
    exact bytes

theorem extents_of_agree (agree : ∀ old ∈ heap.owned hand, other.objects old = heap.objects old) :
    (∀ old ∈ heap.spans ++ heap.cached, other.extent old = heap.extent old) ∧
      other.bytesOf hand = heap.bytesOf hand := by
  constructor
  · intro old mem
    exact extent_congr (agree old (mem_append_left _ mem))
  · apply bytesOf_congr
    intro old mem
    exact extent_congr (agree old (mem_append_right _ mem))

theorem write {old : Span} (good : Good heap hand) (found : heap.objects ref = some old)
    (keeps : span.toExtent = old.toExtent) (same : SameIndexes heap other)
    (nextRef : other.nextRef = heap.nextRef) (allocations : other.allocations = heap.allocations)
    (systemBytes : other.systemBytes = heap.systemBytes) (atRef : other.objects ref = some span)
    (elsewhere : ∀ next, next ≠ ref → other.objects next = heap.objects next) : Good other hand := by
  obtain ⟨extents, stored⟩ := good.stored.write found keeps nextRef allocations atRef elsewhere
  refine good.rewrite same (fun ref _ => extents ref) stored ?_
  rw [systemBytes, bytesOf_congr fun ref _ => extents ref]
  exact good.systemBytes

end Objects

section Moves

theorem cached_eraseCached (good : Good heap hand) (mem : ref ∈ heap.cached) :
    heap.cached.Perm (ref :: (heap.eraseCached ref (heap.extent ref)).cached) :=
  good.bySize.all_discard mem

theorem eraseCached (good : Good heap hand) (mem : ref ∈ heap.cached) :
    Good (heap.eraseCached ref (heap.extent ref)) (ref :: hand) := by
  have split := good.cached_eraseCached mem
  have parts := nodup_cons.mp (split.nodup_iff.mp
    (List.Nodup.of_append_right (List.Nodup.of_append_left good.stored.tiles.nodup)))
  have here : ref ∈ heap.owned hand := mem_owned.mpr (.inr (.inl mem))
  have rest : ∀ old ∈ (heap.eraseCached ref (heap.extent ref)).cached,
      old ∈ heap.owned hand ∧ old ≠ ref := by
    intro old oldMem
    refine ⟨mem_owned.mpr (.inr (.inl (split.mem_iff.mpr (mem_cons_of_mem _ oldMem)))), ?_⟩
    rintro rfl
    exact parts.1 oldMem
  constructor
  case stored =>
    refine good.stored.move rfl rfl rfl ?_
    have moved : ((heap.eraseCached ref (heap.extent ref)).cached ++ ref :: hand).Perm
        (heap.cached ++ hand) := perm_middle.trans (split.symm.append_right hand)
    rw [PageHeap.owned, PageHeap.owned, append_assoc, append_assoc]
    exact moved.append_left heap.spans
  case bySize => exact good.bySize.discard
  case byStart =>
    refine (good.byStart.congr split.symm fun _ _ _ => Iff.rfl).remove ?_ ?_ ?_
    · rintro page rfl
      exact update_self ..
    · intro page elsewhere
      exact update_of_ne (Ne.symm elsewhere) ..
    · rintro old oldMem page rfl
      exact (good.startPage_ne (rest old oldMem).1 here (rest old oldMem).2).symm
  case byEnd =>
    refine (good.byEnd.congr split.symm fun _ _ _ => Iff.rfl).remove ?_ ?_ ?_
    · rintro page rfl
      exact update_self ..
    · intro page elsewhere
      exact update_of_ne (Ne.symm elsewhere) ..
    · rintro old oldMem page rfl
      exact (good.endPage_ne (rest old oldMem).1 here (rest old oldMem).2).symm
  case byPage => exact good.byPage
  case activeBytes => exact good.activeBytes
  case cachedBytes =>
    have total := good.cachedBytes
    rw [bytesOf_perm split, bytesOf_cons] at total
    exact Nat.sub_eq_of_eq_add (total.trans (Nat.add_comm ..))
  case systemBytes =>
    have total := good.cachedBytes
    have system := good.systemBytes
    rw [bytesOf_perm split, bytesOf_cons] at total
    change heap.systemBytes = heap.activeBytes + (heap.cachedBytes - (heap.extent ref).bytes) +
      heap.bytesOf (ref :: hand)
    rw [bytesOf_cons]
    omega

theorem cached_insertCached (good : Good heap hand) :
    (heap.insertCached ref (heap.extent ref)).cached.Perm (ref :: heap.cached) := by
  have filed : Filed (fun ref => (heap.extent ref).pageCount)
      (reserve heap.freeSpansByPages (heap.extent ref).pageCount) := good.bySize.reserve
  obtain ⟨bucket, found⟩ : ∃ bucket, Table.find Prod.fst
      (reserve heap.freeSpansByPages (heap.extent ref).pageCount) (heap.extent ref).pageCount =
        some bucket := exists_find_reserve
  have pushed := filed.all_push found ref
  rw [all_reserve] at pushed
  exact pushed

theorem insertCached (good : Good heap (ref :: hand)) :
    Good (heap.insertCached ref (heap.extent ref)) hand := by
  have joined : (heap.insertCached ref (heap.extent ref)).cached.Perm (ref :: heap.cached) :=
    good.cached_insertCached
  have here : ref ∈ heap.owned (ref :: hand) := mem_hand
  have rest : ∀ old ∈ heap.cached, old ∈ heap.owned (ref :: hand) ∧ old ≠ ref := by
    intro old oldMem
    refine ⟨mem_owned.mpr (.inr (.inl oldMem)), ?_⟩
    rintro rfl
    exact good.not_mem.2.1 oldMem
  constructor
  case stored =>
    refine good.stored.move rfl rfl rfl ?_
    have moved : ((heap.insertCached ref (heap.extent ref)).cached ++ hand).Perm
        (heap.cached ++ ref :: hand) := (joined.append_right hand).trans perm_middle.symm
    rw [PageHeap.owned, PageHeap.owned, append_assoc, append_assoc]
    exact moved.append_left heap.spans
  case bySize => exact good.bySize.reserve.push rfl
  case byStart =>
    refine Describes.congr (good.byStart.insert ?_ ?_ ?_) joined fun _ _ _ => Iff.rfl
    · rintro page rfl
      exact update_self ..
    · intro page elsewhere
      exact update_of_ne (Ne.symm elsewhere) ..
    · rintro old oldMem page rfl
      exact (good.startPage_ne (rest old oldMem).1 here (rest old oldMem).2).symm
  case byEnd =>
    refine Describes.congr (good.byEnd.insert ?_ ?_ ?_) joined fun _ _ _ => Iff.rfl
    · rintro page rfl
      exact update_self ..
    · intro page elsewhere
      exact update_of_ne (Ne.symm elsewhere) ..
    · rintro old oldMem page rfl
      exact (good.endPage_ne (rest old oldMem).1 here (rest old oldMem).2).symm
  case byPage => exact good.byPage
  case activeBytes => exact good.activeBytes
  case cachedBytes =>
    change heap.cachedBytes + (heap.extent ref).bytes =
      heap.bytesOf (heap.insertCached ref (heap.extent ref)).cached
    rw [bytesOf_perm joined, bytesOf_cons, good.cachedBytes, Nat.add_comm]
  case systemBytes =>
    have system := good.systemBytes
    rw [bytesOf_cons] at system
    change heap.systemBytes = heap.activeBytes + (heap.cachedBytes + (heap.extent ref).bytes) +
      heap.bytesOf hand
    omega

theorem activate {pages : ℕ → Option SpanRef} (good : Good heap (ref :: hand))
    (registered : ∀ page ∈ (heap.tile ref).stretch, pages page = some ref)
    (kept : ∀ page, page ∉ (heap.tile ref).stretch → pages page = heap.pageToSpan page) :
    Good { heap with
      spans := heap.spans ++ [ref]
      pageToSpan := pages
      activeBytes := heap.activeBytes + (heap.extent ref).bytes } hand := by
  have joined : (heap.spans ++ [ref]).Perm (ref :: heap.spans) := perm_append_singleton ..
  constructor
  case stored =>
    refine good.stored.move rfl rfl rfl ?_
    have moved : (ref :: (heap.cached ++ hand)).Perm (heap.cached ++ ref :: hand) :=
      perm_middle.symm
    change (heap.spans ++ [ref] ++ heap.cached ++ hand).Perm (heap.spans ++ heap.cached ++ ref :: hand)
    rw [append_assoc, append_assoc, append_assoc]
    exact moved.append_left heap.spans
  case bySize => exact good.bySize
  case byStart => exact good.byStart
  case byEnd => exact good.byEnd
  case byPage =>
    refine Describes.congr (good.byPage.insert registered kept ?_) joined fun _ _ _ => Iff.rfl
    intro old mem page inOld inRef
    have same := good.stored.tiles.disjoint old (mem_owned.mpr (.inl mem)) ref mem_hand page
      inOld inRef
    exact good.not_mem.1 (same ▸ mem)
  case activeBytes =>
    change heap.activeBytes + (heap.extent ref).bytes = heap.bytesOf (heap.spans ++ [ref])
    rw [bytesOf_perm joined, bytesOf_cons, good.activeBytes, Nat.add_comm]
  case cachedBytes => exact good.cachedBytes
  case systemBytes =>
    have system := good.systemBytes
    rw [bytesOf_cons] at system
    change heap.systemBytes = heap.activeBytes + (heap.extent ref).bytes + heap.cachedBytes +
      heap.bytesOf hand
    omega

theorem deactivate {pages : ℕ → Option SpanRef} (good : Good heap hand) (mem : ref ∈ heap.spans)
    (removed : ∀ page ∈ (heap.tile ref).stretch, pages page = none)
    (kept : ∀ page, page ∉ (heap.tile ref).stretch → pages page = heap.pageToSpan page) :
    Good { heap with
      spans := heap.spans.erase ref
      pageToSpan := pages
      activeBytes := heap.activeBytes - (heap.extent ref).bytes } (ref :: hand) := by
  have split : heap.spans.Perm (ref :: heap.spans.erase ref) := perm_cons_erase mem
  have here : ref ∈ heap.owned hand := mem_owned.mpr (.inl mem)
  have total := good.activeBytes
  rw [bytesOf_perm split, bytesOf_cons] at total
  constructor
  case stored =>
    refine good.stored.move rfl rfl rfl ?_
    have moved : (heap.cached ++ ref :: hand).Perm (ref :: (heap.cached ++ hand)) := perm_middle
    change (heap.spans.erase ref ++ heap.cached ++ ref :: hand).Perm
      (heap.spans ++ heap.cached ++ hand)
    rw [append_assoc, append_assoc]
    exact (moved.append_left _).trans
      (perm_middle.trans (split.symm.append_right (heap.cached ++ hand)))
  case bySize => exact good.bySize
  case byStart => exact good.byStart
  case byEnd => exact good.byEnd
  case byPage =>
    refine (good.byPage.congr split.symm fun _ _ _ => Iff.rfl).remove removed kept ?_
    intro old oldMem page inOld inRef
    have nodup := nodup_cons.mp (split.nodup_iff.mp
      (List.Nodup.of_append_left (List.Nodup.of_append_left good.stored.tiles.nodup)))
    have same := good.stored.tiles.disjoint old
      (mem_owned.mpr (.inl (mem_of_mem_erase oldMem))) ref here page inOld inRef
    exact nodup.1 (same ▸ oldMem)
  case activeBytes => exact Nat.sub_eq_of_eq_add (total.trans (Nat.add_comm ..))
  case cachedBytes => exact good.cachedBytes
  case systemBytes =>
    have system := good.systemBytes
    change heap.systemBytes = heap.activeBytes - (heap.extent ref).bytes + heap.cachedBytes +
      heap.bytesOf (ref :: hand)
    rw [bytesOf_cons]
    omega

theorem refile {buckets : List (ℕ × List SpanRef)} (good : Good heap hand)
    (filed : Filed (fun ref => (heap.extent ref).pageCount) buckets)
    (same : (all buckets).Perm heap.cached) : Good { heap with freeSpansByPages := buckets } hand where
  stored := by
    refine good.stored.move rfl rfl rfl ?_
    exact (same.append_left heap.spans).append_right hand
  bySize := filed
  byStart := good.byStart.congr same fun _ _ _ => Iff.rfl
  byEnd := good.byEnd.congr same fun _ _ _ => Iff.rfl
  byPage := good.byPage
  activeBytes := good.activeBytes
  cachedBytes := good.cachedBytes.trans (bytesOf_perm same).symm
  systemBytes := good.systemBytes

theorem swap (good : Good heap (ref :: next :: hand)) : Good heap (next :: ref :: hand) where
  stored := by
    refine good.stored.move rfl rfl rfl ?_
    exact (List.Perm.swap ref next hand).append_left _
  bySize := good.bySize
  byStart := good.byStart
  byEnd := good.byEnd
  byPage := good.byPage
  activeBytes := good.activeBytes
  cachedBytes := good.cachedBytes
  systemBytes := by
    rw [bytesOf_perm (List.Perm.swap ref next hand)]
    exact good.systemBytes

end Moves

section Cut

theorem split (good : Good heap (ref :: hand)) {needed : ℕ} {other : PageHeap}
    (split : Split ref span needed heap other) : Good other (ref :: heap.nextRef :: hand) := by
  have stored := good.stored.move rfl rfl rfl owned_cons.symm
  have aligned : span.Aligned := extent_eq split.found ▸ stored.aligned ref mem_cons_self
  obtain ⟨agree, after⟩ := stored.split split
  obtain ⟨extents, others⟩ := extents_of_agree agree
  refine good.rewrite split.toSameIndexes extents
    (after.move rfl rfl rfl (owned_cons.trans (owned_cons.cons ref))) ?_
  have total : needed * kPageSize + (span.pageCount - needed) * kPageSize =
      span.pageCount * kPageSize := by
    rw [← Nat.add_mul, Nat.add_sub_of_le split.less.le]
  have system := good.systemBytes
  rw [split.systemBytes]
  simp only [bytesOf_cons, others, extent_eq split.found, extent_eq split.atRef,
    extent_eq split.atFresh, aligned.bytes, Span.leading, Span.remaining, Span.resetObjectInfo]
    at system ⊢
  omega

theorem absorb (good : Good heap (ref :: next :: hand)) (found : heap.objects ref = some span)
    {right : Span} (nextFound : heap.objects next = some right)
    (merge : canMerge span right = true) {other : PageHeap}
    (same : SameIndexes heap other) (nextRef : other.nextRef = heap.nextRef)
    (allocations : other.allocations = heap.allocations)
    (systemBytes : other.systemBytes = heap.systemBytes)
    (atRef : other.objects ref = some (span.joined right)) (deleted : other.objects next = none)
    (elsewhere : ∀ old, old ≠ ref → old ≠ next → other.objects old = heap.objects old) :
    Good other (ref :: hand) := by
  have moved : (heap.owned (ref :: next :: hand)).Perm (ref :: next :: heap.owned hand) :=
    owned_cons.trans (owned_cons.cons ref)
  have stored := good.stored.move rfl rfl rfl moved.symm
  obtain ⟨agree, after⟩ := stored.absorb found nextFound merge nextRef allocations atRef deleted
    elsewhere
  obtain ⟨extents, others⟩ := extents_of_agree agree
  refine good.rewrite same extents (after.move rfl rfl rfl owned_cons) ?_
  have system := good.systemBytes
  simp only [bytesOf_cons, others, extent_eq found, extent_eq atRef,
    extent_eq nextFound, Span.joined, Span.resetObjectInfo] at system ⊢
  omega

end Cut

section Blocks

variable {other : PageHeap}

theorem place (good : Good heap hand) {memory pageCount : ℕ}
    (onPage : memory = pageIdOf memory * kPageSize) (notNull : 0 < pageIdOf memory)
    (apart : ∀ block ∈ heap.allocations, block.Apart ⟨pageIdOf memory, pageCount⟩)
    (placed : Placed memory pageCount span heap other) : Good other (heap.nextRef :: hand) := by
  obtain ⟨agree, after⟩ := good.stored.place onPage notNull apart placed
  obtain ⟨extents, others⟩ := extents_of_agree agree
  refine good.rewrite placed.toSameIndexes extents (after.move rfl rfl rfl owned_cons) ?_
  have system := good.systemBytes
  rw [bytesOf_cons, others, extent_eq placed.atFresh, placed.extent, placed.systemBytes]
  change heap.systemBytes + pageCount * kPageSize =
    heap.activeBytes + heap.cachedBytes + (pageCount * kPageSize + heap.bytesOf hand)
  omega

theorem free (good : Good heap (ref :: hand))
    (whole : (heap.tile ref).stretch = (heap.tile ref).block) (same : SameIndexes heap other)
    (nextRef : other.nextRef = heap.nextRef)
    (allocations : other.allocations = heap.allocations.erase (heap.tile ref).block)
    (systemBytes : other.systemBytes = heap.systemBytes - (heap.extent ref).bytes)
    (deleted : other.objects ref = none)
    (elsewhere : ∀ old, old ≠ ref → other.objects old = heap.objects old) : Good other hand := by
  have stored := good.stored.move rfl rfl rfl owned_cons.symm
  obtain ⟨agree, after⟩ := stored.free whole nextRef allocations deleted elsewhere
  obtain ⟨extents, others⟩ := extents_of_agree agree
  refine good.rewrite same extents after ?_
  have system := good.systemBytes
  rw [bytesOf_cons] at system
  rw [others]
  omega

end Blocks

theorem empty : Good {} [] where
  stored := by
    refine ⟨Tiles.nil, fun ref => ?_, ?_, ?_, ?_⟩
    · simp [PageHeap.owned, PageHeap.cached, all]
    all_goals simp [PageHeap.owned, PageHeap.cached, all]
  bySize := filed_nil
  byStart key ref := by simp [PageHeap.cached, all]
  byEnd key ref := by simp [PageHeap.cached, all]
  byPage key ref := by simp
  activeBytes := rfl
  cachedBytes := rfl
  systemBytes := rfl

end Good

end IotProxy.Tcmalloc

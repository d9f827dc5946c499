import IotProxy.Lib.Run
import IotProxy.Tcmalloc.PageHeapCalls

/-!
# Runs of the page heap

In a run no allocation fails and the system gives pages that are not in use. The heap is settled
after every call, so that the active and the cached spans partition the blocks of the system
(`spans_partition_blocks`) and the cached spans are coalesced (`cached_spans_coalesced`).
-/

namespace IotProxy.Tcmalloc

open EventSystem Tiling Index EStateM PageHeap Option

inductive HeapEvent where
  /-- If the system is asked, it gives the block at `memory`. -/
  | newSpan (pageCount memory : ℕ)
  | releaseSpan (ref : SpanRef)
  | purgeCachedSpans

namespace HeapEvent

def call : HeapEvent → HeapM Unit
  | .newSpan pageCount memory => do
      let _ ← Tcmalloc.newSpan pageCount memory
      pure ()
  | .releaseSpan ref => do
      let _ ← Tcmalloc.releaseSpan ref
      pure ()
  | .purgeCachedSpans => do
      let _ ← Tcmalloc.purgeCachedSpans
      pure ()

def step (heap : PageHeap) (event : HeapEvent) : Option PageHeap :=
  (event.call.result? { heap }).map fun result => result.2.heap

theorem step_of_call {heap : PageHeap} {event : HeapEvent} {after : HeapCall}
    (returned : event.call { heap } = .ok () after) : step heap event = some after.heap := by
  rw [step, result?_eq_some.mpr returned, map_some]

def Condition (heap : PageHeap) : HeapEvent → Prop
  | .newSpan pageCount memory => FreshMemory heap pageCount memory
  | _ => True

instance (heap : PageHeap) (event : HeapEvent) : Decidable (Condition heap event) :=
  match event with
  | .newSpan pageCount memory => inferInstanceAs (Decidable (FreshMemory heap pageCount memory))
  | .releaseSpan _ => inferInstanceAs (Decidable True)
  | .purgeCachedSpans => inferInstanceAs (Decidable True)

end HeapEvent

section Settled

variable {heap after : PageHeap} {event : HeapEvent} {events : List HeapEvent}

theorem Settled.empty : Settled {} [] :=
  ⟨Good.empty, fun left mem => by simp [PageHeap.cached, all] at mem⟩

theorem exists_step (settled : Settled heap []) (meets : HeapEvent.Condition heap event) :
    ∃ after, HeapEvent.step heap event = some after ∧ Settled after [] := by
  have returns : event.call.Returns { heap } fun _ after => Settled after.heap [] := by
    cases event with
    | newSpan pageCount memory =>
      refine Returns.bind (newSpan_spec settled meets rfl) ?_
      rintro _ after (⟨-, rfl, -⟩ | ⟨ref, -, gained⟩)
      · exact settled
      · exact gained.settled
    | releaseSpan ref =>
      refine Returns.bind (releaseSpan_spec settled rfl) ?_
      rintro (_ | _) after ends
      · exact ends.2 ▸ settled
      · exact ends.2.2.1
    | purgeCachedSpans =>
      refine Returns.bind (purgeCachedSpans_spec settled) ?_
      rintro _ after ⟨-, final, -⟩
      exact final
  obtain ⟨value, after, returned, final⟩ := returns_iff.mp returns
  exact ⟨after.heap, HeapEvent.step_of_call returned, final⟩

theorem settled_of_run (run : Run HeapEvent.step HeapEvent.Condition {} events heap) :
    Settled heap [] := by
  apply run.invariant
  · exact Settled.empty
  · intro before after event meets taken settled
    obtain ⟨result, stepped, final⟩ := exists_step settled meets
    rw [taken, some_inj] at stepped
    exact stepped ▸ final

theorem exists_purge (settled : Settled heap []) :
    ∃ after, HeapEvent.step heap .purgeCachedSpans = some after ∧ Settled after [] ∧
      PurgeFrame heap after ∧
      ∀ ref ∈ after.cached, (after.tile ref).stretch ≠ (after.tile ref).block := by
  have returns : (HeapEvent.call .purgeCachedSpans).Returns { heap } fun _ after =>
      Settled after.heap [] ∧ PurgeFrame heap after.heap ∧
        ∀ ref ∈ after.heap.cached, (after.heap.tile ref).stretch ≠ (after.heap.tile ref).block := by
    refine Returns.bind (purgeCachedSpans_spec settled) ?_
    rintro _ after ⟨-, final⟩
    exact final
  obtain ⟨value, after, returned, final⟩ := returns_iff.mp returns
  exact ⟨after.heap, HeapEvent.step_of_call returned, final⟩

end Settled

/-- The active and the cached spans partition the blocks of the system, and the indexes and the
counters describe them. -/
structure Partitioned (heap : PageHeap) : Prop where
  nodup : (heap.spans ++ heap.cached).Nodup
  alive : ∀ ref ∈ heap.spans ++ heap.cached, (heap.objects ref).isSome
  aligned : ∀ ref ∈ heap.spans ++ heap.cached, (heap.extent ref).Aligned
  covered : ∀ block ∈ heap.allocations, ∀ page ∈ block,
    ∃! ref, ref ∈ heap.spans ++ heap.cached ∧ page ∈ (heap.tile ref).stretch
  inside : ∀ ref ∈ heap.spans ++ heap.cached, (heap.tile ref).block ∈ heap.allocations ∧
    ∀ page ∈ (heap.tile ref).stretch, page ∈ (heap.tile ref).block
  byPage : ∀ page ref, heap.pageToSpan page = some ref ↔
    ref ∈ heap.spans ∧ page ∈ (heap.tile ref).stretch
  byStart : ∀ page ref, heap.cachedStartPageToSpan page = some ref ↔
    ref ∈ heap.cached ∧ (heap.extent ref).startPage = page
  byEnd : ∀ page ref, heap.cachedEndPageToSpan page = some ref ↔
    ref ∈ heap.cached ∧ (heap.extent ref).endPage = page
  bySize : ∀ pageCount ref,
    (∃ bucket ∈ heap.freeSpansByPages, bucket.1 = pageCount ∧ ref ∈ bucket.2) ↔
      ref ∈ heap.cached ∧ (heap.extent ref).pageCount = pageCount
  activeBytes : heap.activeBytes = heap.bytesOf heap.spans
  cachedBytes : heap.cachedBytes = heap.bytesOf heap.cached
  systemBytes : heap.activeBytes + heap.cachedBytes = heap.systemBytes

theorem Settled.tiles {heap : PageHeap} (settled : Settled heap []) :
    Tiles heap.tile (heap.spans ++ heap.cached) heap.allocations := by
  have tiles := settled.good.stored.tiles
  rwa [PageHeap.owned, List.append_nil] at tiles

theorem Settled.partitioned {heap : PageHeap} (settled : Settled heap []) : Partitioned heap := by
  have good := settled.good
  have owned : heap.owned [] = heap.spans ++ heap.cached := List.append_nil _
  have stored := good.stored
  rw [owned] at stored
  constructor
  case nodup => exact stored.tiles.nodup
  case alive => exact fun ref mem => (stored.alive ref).mpr mem
  case aligned => exact stored.aligned
  case covered =>
    intro block blockMem page inBlock
    obtain ⟨ref, mem, inTile⟩ := stored.tiles.covers block blockMem page inBlock
    refine ⟨ref, ⟨mem, inTile⟩, ?_⟩
    rintro other ⟨otherMem, inOther⟩
    exact stored.tiles.disjoint other otherMem ref mem page inOther inTile
  case inside => exact fun ref mem => ⟨stored.tiles.home ref mem, stored.tiles.inside ref mem⟩
  case byPage => exact good.byPage
  case byStart => exact good.byStart
  case byEnd => exact good.byEnd
  case bySize =>
    intro pageCount ref
    constructor
    · rintro ⟨bucket, bucketMem, rfl, mem⟩
      exact ⟨mem_all.mpr ⟨bucket, bucketMem, mem⟩, good.bySize.keys bucket bucketMem ref mem⟩
    · rintro ⟨mem, rfl⟩
      obtain ⟨bucket, bucketMem, inBucket⟩ := mem_all.mp mem
      exact ⟨bucket, bucketMem, (good.bySize.keys bucket bucketMem ref inBucket).symm, inBucket⟩
  case activeBytes => exact good.activeBytes
  case cachedBytes => exact good.cachedBytes
  case systemBytes => exact good.systemBytes.symm

section Partition

variable {heap : PageHeap} {events : List HeapEvent}

/-- After every sequence of calls the spans partition the blocks. Every further call returns, and
purging gives no block back in which an active span lies. -/
theorem spans_partition_blocks (run : Run HeapEvent.step HeapEvent.Condition {} events heap) :
    Partitioned heap ∧
      (∀ event, HeapEvent.Condition heap event → (HeapEvent.step heap event).isSome) ∧
      ∀ after, HeapEvent.step heap .purgeCachedSpans = some after →
        ∀ block ∈ heap.allocations, block ∉ after.allocations →
          ∀ ref ∈ heap.spans, (heap.tile ref).block ≠ block := by
  have settled := settled_of_run run
  refine ⟨settled.partitioned, fun event meets => ?_, ?_⟩
  · obtain ⟨after, stepped, -⟩ := exists_step settled meets
    rw [stepped]
    rfl
  · rintro after purged block - gone ref mem rfl
    obtain ⟨result, stepped, final, frame, -⟩ := exists_purge settled
    rw [purged, some_inj] at stepped
    subst stepped
    have owned : ref ∈ after.owned [] := mem_owned.mpr (.inl (frame.spans ▸ mem))
    rw [← frame.tile_eq ((final.good.stored.alive ref).mpr owned)] at gone
    exact gone (final.good.stored.tiles.home ref owned)

/-- A block of three pages is split, its parts are released and the block is given back. -/
theorem split_block_partitioned : ∃ heap,
    Run HeapEvent.step HeapEvent.Condition {}
      [.newSpan 3 8192, .releaseSpan 0, .newSpan 1 40960, .newSpan 1 49152, .releaseSpan 0] heap ∧
      heap.spans = [1] ∧ heap.cached.length = 2 ∧ heap.systemBytes = 24576 ∧ Partitioned heap := by
  refine Run.exists_of_execute (fun heap => heap.spans = [1] && heap.cached.length = 2 &&
    heap.systemBytes = 24576) ?_ ?_
  · decide +kernel
  · intro heap run facts
    simp only [Bool.and_eq_true, decide_eq_true_eq] at facts
    exact ⟨facts.1.1, facts.1.2, facts.2, (spans_partition_blocks run).1⟩

end Partition

section Coalescing

variable {heap : PageHeap} {events : List HeapEvent}

/-- No cached span ends where another one of its block starts. So a block without active spans is
one cached span, and purging gives it back. -/
theorem cached_spans_coalesced (run : Run HeapEvent.step HeapEvent.Condition {} events heap) :
    (∀ left ∈ heap.cached, ∀ right ∈ heap.cached,
      (heap.extent left).allocationBase = (heap.extent right).allocationBase →
        (heap.extent left).start + (heap.extent left).bytes ≠ (heap.extent right).start) ∧
      ∀ block ∈ heap.allocations, (∀ ref ∈ heap.spans, (heap.tile ref).block ≠ block) →
        (∃ ref ∈ heap.cached, heap.tile ref = ⟨block, block⟩ ∧
          ∀ other ∈ heap.cached, (heap.tile other).block = block → other = ref) ∧
        ∃ after, HeapEvent.step heap .purgeCachedSpans = some after ∧ block ∉ after.allocations := by
  have settled := settled_of_run run
  have stored := settled.good.stored
  have tiles := settled.tiles
  refine ⟨?_, fun block blockMem inactive => ⟨?_, ?_⟩⟩
  · intro left leftMem right rightMem sameBase adjacent
    have leftOwned : left ∈ heap.owned [] := mem_owned.mpr (.inr (.inl leftMem))
    have rightOwned : right ∈ heap.owned [] := mem_owned.mpr (.inr (.inl rightMem))
    have leftAligned := stored.aligned left leftOwned
    have rightAligned := stored.aligned right rightOwned
    refine settled.coalesced left leftMem right rightMem ?_ ?_
    · have found := stored.find_block leftOwned
      rw [sameBase, stored.find_block rightOwned, some_inj] at found
      exact found.symm
    · rw [leftAligned.start, leftAligned.bytes, rightAligned.start, ← Nat.add_mul,
        mul_kPageSize_inj] at adjacent
      exact adjacent
  · obtain ⟨ref, mem, whole⟩ := tiles.whole_of_free settled.coalesced blockMem
      (stored.placed block blockMem).2 inactive
    refine ⟨ref, mem, whole, fun other otherMem same => ?_⟩
    have otherIn : other ∈ heap.spans ++ heap.cached := List.mem_append_right _ otherMem
    have first := Stretch.first_mem (tiles.nonempty other otherIn)
    refine tiles.disjoint other otherIn ref (List.mem_append_right _ mem) _ first ?_
    have inBlock := tiles.inside other otherIn _ first
    rw [same] at inBlock
    rw [whole]
    exact inBlock
  · obtain ⟨after, stepped, final, frame, notWhole⟩ := exists_purge settled
    refine ⟨after, stepped, fun stays => ?_⟩
    obtain ⟨ref, mem, whole⟩ := final.tiles.whole_of_free final.coalesced stays
      (final.good.stored.placed block stays).2 (fun ref mem => by
        have owned : ref ∈ after.owned [] := mem_owned.mpr (.inl mem)
        rw [frame.tile_eq ((final.good.stored.alive ref).mpr owned)]
        exact inactive ref (frame.spans ▸ mem))
    refine notWhole ref mem ?_
    rw [whole]

/-- The parts of a block are released from the middle. -/
theorem split_block_coalesced : ∃ heap,
    Run HeapEvent.step HeapEvent.Condition {}
      [.newSpan 3 8192, .releaseSpan 0, .newSpan 1 40960, .newSpan 1 49152, .newSpan 1 57344,
        .releaseSpan 1, .releaseSpan 2, .releaseSpan 0] heap ∧
      (∃ ref ∈ heap.cached, heap.tile ref = ⟨⟨1, 3⟩, ⟨1, 3⟩⟩ ∧
        ∀ other ∈ heap.cached, (heap.tile other).block = ⟨1, 3⟩ → other = ref) ∧
      ∃ after, HeapEvent.step heap .purgeCachedSpans = some after ∧ ⟨1, 3⟩ ∉ after.allocations := by
  refine Run.exists_of_execute (fun heap => heap.spans = [] && heap.allocations = [⟨1, 3⟩]) ?_ ?_
  · decide +kernel
  · intro heap run facts
    simp only [Bool.and_eq_true, decide_eq_true_eq] at facts
    refine (cached_spans_coalesced run).2 ⟨1, 3⟩ ?_ ?_
    · rw [facts.2]
      exact List.mem_singleton_self _
    · rw [facts.1]
      exact fun _ mem => absurd mem List.not_mem_nil

/-- Once all spans have been released, purging gives all memory back. -/
theorem purge_returns_all (run : Run HeapEvent.step HeapEvent.Condition {} events heap)
    (released : heap.spans = []) :
    ∃ after, HeapEvent.step heap .purgeCachedSpans = some after ∧ after.allocations = [] ∧
      after.spans ++ after.cached = [] ∧ after.systemBytes = 0 := by
  obtain ⟨after, stepped, final, frame, notWhole⟩ := exists_purge (settled_of_run run)
  have noBlocks : after.allocations = [] := by
    refine List.eq_nil_iff_forall_not_mem.mpr fun block stays => ?_
    obtain ⟨ref, mem, whole⟩ := final.tiles.whole_of_free final.coalesced stays
      (final.good.stored.placed block stays).2 (by simp [frame.spans, released])
    exact notWhole ref mem (by rw [whole])
  have noSpans : after.spans ++ after.cached = [] := by
    refine List.eq_nil_iff_forall_not_mem.mpr fun ref mem => ?_
    simpa [noBlocks] using final.tiles.home ref mem
  refine ⟨after, stepped, noBlocks, noSpans, ?_⟩
  rw [final.good.systemBytes, final.good.activeBytes, final.good.cachedBytes]
  simp [List.append_eq_nil_iff.mp noSpans, bytesOf]

/-- A block is split, and its parts are released. -/
theorem split_block_returned : ∃ heap,
    Run HeapEvent.step HeapEvent.Condition {}
      [.newSpan 2 8192, .releaseSpan 0, .newSpan 1 40960, .releaseSpan 0] heap ∧
      ∃ after, HeapEvent.step heap .purgeCachedSpans = some after ∧ after.allocations = [] ∧
        after.spans ++ after.cached = [] ∧ after.systemBytes = 0 :=
  Run.exists_of_execute (fun heap => heap.spans = []) (by decide +kernel)
    fun _ run released => purge_returns_all run (of_decide_eq_true released)

end Coalescing

end IotProxy.Tcmalloc

import IotProxy.Tcmalloc.PageHeapInvariant

/-!
# The cache of the page heap

The functions on the cached spans have specifications over `Settled` heaps: the invariant holds and
no two cached spans are neighbours in one block. A span in the hand of the call that has no
neighbour in the cache is `Isolated`, and coalescing ends with such a span. No allocation fails
here.
-/

namespace IotProxy.Tcmalloc

open List hiding all
open Tiling Index EStateM Function PageHeap

section Rules

variable {α β : Type} {call : HeapCall} {post : β → HeapCall → Prop}
  {raised : HeapError → HeapCall → Prop}

theorem ensures_getHeap {next : PageHeap → HeapM β}
    (rest : (next call.heap).Ensures call post raised) :
    (getHeap >>= next).Ensures call post raised := rest

variable {next : Unit → HeapM β}

theorem ensures_modifyHeap {change : PageHeap → PageHeap}
    (rest : (next ()).Ensures { call with heap := change call.heap } post raised) :
    (modifyHeap change >>= next).Ensures call post raised := rest

theorem ensures_change {change : PageHeap → PageHeap} {post : Unit → HeapCall → Prop}
    (holds : post () { call with heap := change call.heap }) :
    (modifyHeap change).Ensures call post raised := holds

theorem ensures_allocate {point : AllocationPoint} (sure : call.failing = none)
    (rest : (next ()).Ensures call post raised) :
    (allocate point >>= next).Ensures call post raised := by
  refine ensures_bind (ensures_bind (ensures_get ?_))
  rw [sure, if_neg (by simp)]
  exact rest

theorem ensures_allocateEntry {entry : Option α} {point : AllocationPoint}
    (sure : call.failing = none) (rest : (next ()).Ensures call post raised) :
    (allocateEntry entry point >>= next).Ensures call post raised := by
  cases entry with
  | some old => exact rest
  | none => exact ensures_allocate sure rest

variable {ref : SpanRef} {span : Span}

theorem ensures_deref {next : Span → HeapM β}
    (found : call.heap.objects ref = some span) (rest : (next span).Ensures call post raised) :
    (deref ref >>= next).Ensures call post raised := by
  refine ensures_bind (ensures_getHeap ?_)
  rw [found]
  exact rest

theorem ensures_writeSpan {change : Span → Span} (found : call.heap.objects ref = some span)
    (rest : (next ()).Ensures
      { call with
        heap := { call.heap with
          objects := update call.heap.objects ref (some (change span)) } } post raised) :
    (writeSpan ref change >>= next).Ensures call post raised :=
  ensures_bind (ensures_deref found rest)

theorem ensures_attempt {action : HeapM α} {next : Option α → HeapM β}
    (returns : action.Returns call fun value after =>
      (next (some value)).Ensures after post raised) :
    (attempt action >>= next).Ensures call post raised :=
  ensures_bind (ensures_tryCatch (returns.bind fun _ _ rest => rest))

end Rules

/-- What holds between the calls: the invariant, and no two cached spans are neighbours in one
block. -/
structure Settled (heap : PageHeap) (hand : List SpanRef) : Prop where
  good : Good heap hand
  coalesced : Coalesced heap.tile heap.cached

def NoLeftNeighbour (heap : PageHeap) (ref : SpanRef) : Prop :=
  ∀ other ∈ heap.cached, (heap.tile other).block = (heap.tile ref).block →
    (heap.tile other).stretch.stop ≠ (heap.tile ref).stretch.first

def NoRightNeighbour (heap : PageHeap) (ref : SpanRef) : Prop :=
  ∀ other ∈ heap.cached, (heap.tile ref).block = (heap.tile other).block →
    (heap.tile ref).stretch.stop ≠ (heap.tile other).stretch.first

structure Isolated (heap : PageHeap) (ref : SpanRef) : Prop where
  left : NoLeftNeighbour heap ref
  right : NoRightNeighbour heap ref

/-- What a function leaves alone that works on the cache: the active spans, and the spans `kept` in
the hand of the call. -/
structure Frame (kept : List SpanRef) (before after : PageHeap) : Prop where
  spans : after.spans = before.spans
  pageToSpan : after.pageToSpan = before.pageToSpan
  activeBytes : after.activeBytes = before.activeBytes
  systemBytes : after.systemBytes = before.systemBytes
  allocations : after.allocations = before.allocations
  objects : ∀ ref ∈ before.spans ++ kept, after.objects ref = before.objects ref

namespace Frame

variable {kept fewer : List SpanRef} {before middle after : PageHeap}

theorem refl : Frame kept before before := by constructor <;> simp

theorem trans (first : Frame kept before middle) (second : Frame kept middle after) :
    Frame kept before after where
  spans := second.spans.trans first.spans
  pageToSpan := second.pageToSpan.trans first.pageToSpan
  activeBytes := second.activeBytes.trans first.activeBytes
  systemBytes := second.systemBytes.trans first.systemBytes
  allocations := second.allocations.trans first.allocations
  objects ref mem := by
    rw [second.objects ref (by rw [first.spans]; exact mem), first.objects ref mem]

theorem weaken (frame : Frame kept before after) (subset : ∀ ref ∈ fewer, ref ∈ kept) :
    Frame fewer before after where
  spans := frame.spans
  pageToSpan := frame.pageToSpan
  activeBytes := frame.activeBytes
  systemBytes := frame.systemBytes
  allocations := frame.allocations
  objects ref mem := by
    refine frame.objects ref ?_
    rcases mem_append.mp mem with active | held
    · exact mem_append_left _ active
    · exact mem_append_right _ (subset ref held)

end Frame

section Cache

variable {call : HeapCall} {hand : List SpanRef} {ref : SpanRef} {span : Span}

variable {heap : PageHeap}

theorem Settled.of_subset {after : PageHeap} {changed : List SpanRef}
    (settled : Settled heap hand) (good : Good after changed)
    (subset : ∀ ref ∈ after.cached, ref ∈ heap.cached)
    (agree : ∀ ref ∈ after.cached, after.extent ref = heap.extent ref) : Settled after changed where
  good := good
  coalesced left leftMem right rightMem := by
    rw [tile_congr (agree left leftMem), tile_congr (agree right rightMem)]
    exact settled.coalesced left (subset left leftMem) right (subset right rightMem)

theorem eraseCachedSpan_spec (good : Good call.heap hand) (mem : ref ∈ call.heap.cached) :
    (eraseCachedSpan ref).Returns call fun _ after =>
      after = { call with heap := call.heap.eraseCached ref (call.heap.extent ref) } := by
  obtain ⟨span, found, -⟩ := good.exists_object (mem_owned.mpr (.inr (.inl mem)))
  refine ensures_deref found ?_
  rw [← extent_eq found]
  rfl

theorem Settled.eraseCached (settled : Settled heap hand) (mem : ref ∈ heap.cached) :
    Settled (heap.eraseCached ref (heap.extent ref)) (ref :: hand) ∧
      Frame hand heap (heap.eraseCached ref (heap.extent ref)) := by
  have split := settled.good.cached_eraseCached mem
  refine ⟨settled.of_subset (settled.good.eraseCached mem) ?_ fun _ _ => rfl, ?_⟩
  · exact fun other otherMem => split.mem_iff.mpr (mem_cons_of_mem _ otherMem)
  · constructor <;> intros <;> rfl

theorem absorb_spec (call : HeapCall) {next : SpanRef} {nextSpan : Span}
    (settled : Settled call.heap (ref :: next :: hand)) (found : call.heap.objects ref = some span)
    (nextFound : call.heap.objects next = some nextSpan) (merge : canMerge span nextSpan = true) :
    (absorb ref next).Returns call fun _ after =>
      after.failing = call.failing ∧ Settled after.heap (ref :: hand) ∧
        Frame hand call.heap after.heap ∧ after.heap.cached = call.heap.cached := by
  obtain ⟨refActive, refCached, refHand⟩ := settled.good.not_mem
  obtain ⟨nextActive, nextCached, nextHand⟩ := settled.good.swap.not_mem
  rw [mem_cons, not_or] at refHand nextHand
  have notNext : ref ≠ next := refHand.1
  have stillFound : update call.heap.objects ref (some (span.joined nextSpan)) next =
      some nextSpan := by
    rw [update_of_ne notNext.symm, nextFound]
  have elsewhere : ∀ old, old ≠ ref → old ≠ next →
      update (update call.heap.objects ref (some (span.joined nextSpan))) next none
        old = call.heap.objects old := by
    intro old notRef notNext
    rw [update_of_ne notNext, update_of_ne notRef]
  have atRef : update (update call.heap.objects ref (some (span.joined nextSpan)))
      next none ref = some (span.joined nextSpan) := by
    rw [update_of_ne notNext, update_self]
  refine ensures_deref nextFound (ensures_writeSpan found (ensures_deref stillFound ?_))
  refine ⟨rfl, settled.of_subset ?_ (fun _ mem => mem) ?_, ?_, rfl⟩
  · exact settled.good.absorb found nextFound merge (by constructor <;> rfl) rfl rfl rfl atRef
      (update_self ..) elsewhere
  · intro old mem
    refine extent_congr (elsewhere old ?_ ?_)
    · exact fun same => refCached (same ▸ mem)
    · exact fun same => nextCached (same ▸ mem)
  · constructor
    case objects =>
      intro old mem
      refine elsewhere old ?_ ?_
      · rintro rfl
        exact (mem_append.mp mem).elim refActive refHand.2
      · rintro rfl
        exact (mem_append.mp mem).elim nextActive nextHand.2
    all_goals rfl

def LeftMerge (call : HeapCall) (ref : SpanRef) (hand : List SpanRef) :
    Option SpanRef → HeapCall → Prop
  | none, after => after = call ∧ NoLeftNeighbour call.heap ref
  | some left, after => after.failing = call.failing ∧ Settled after.heap (left :: hand) ∧
      Frame hand call.heap after.heap ∧
      after.heap.cached.length < call.heap.cached.length

theorem canMerge_iff_tiles {left right : SpanRef} {leftSpan rightSpan : Span}
    (leftFound : heap.objects left = some leftSpan) (leftAligned : leftSpan.Aligned)
    (rightFound : heap.objects right = some rightSpan) (rightAligned : rightSpan.Aligned) :
    canMerge leftSpan rightSpan = true ↔ (heap.tile left).block = (heap.tile right).block ∧
      (heap.tile left).stretch.stop = (heap.tile right).stretch.first := by
  rw [canMerge_iff leftAligned rightAligned, PageHeap.tile, PageHeap.tile, extent_eq leftFound,
    extent_eq rightFound]

theorem mergeLeft_spec (settled : Settled call.heap (ref :: hand)) :
    (mergeLeft ref).Returns call (LeftMerge call ref hand) := by
  have good := settled.good
  obtain ⟨span, found, aligned, -, -⟩ := good.exists_object Good.mem_hand
  have extent := extent_eq found
  refine ensures_deref found (ensures_getHeap ?_)
  cases ending : call.heap.cachedEndPageToSpan span.startPage with
  | none =>
    refine ensures_pure ⟨rfl, fun other mem _ adjacent => ?_⟩
    have entry := (good.byEnd _ other).mpr ⟨mem, rfl⟩
    change (call.heap.extent other).endPage = (call.heap.extent ref).startPage at adjacent
    rw [adjacent, extent, ending] at entry
    cases entry
  | some left =>
    obtain ⟨leftMem, leftEnd⟩ := (good.byEnd _ left).mp ending
    have leftOwned : left ∈ call.heap.owned (ref :: hand) :=
      mem_owned.mpr (.inr (.inl leftMem))
    obtain ⟨leftSpan, leftFound, leftAligned, -, -⟩ := good.exists_object leftOwned
    have mergeable := canMerge_iff_tiles leftFound leftAligned found aligned
    refine ensures_deref leftFound ?_
    split
    · next merge =>
      obtain ⟨taken, frame⟩ := settled.eraseCached leftMem
      refine (eraseCachedSpan_spec good leftMem).bind ?_
      rintro _ _ rfl
      refine (absorb_spec { call with heap := call.heap.eraseCached left _ } taken leftFound found
        merge).bind ?_
      rintro _ after ⟨failing, settled, absorbed, cached⟩
      refine ensures_pure ⟨failing, settled, ?_, ?_⟩
      · exact (frame.weaken (fun _ mem => mem_cons_of_mem _ mem)).trans absorbed
      · rw [cached, (good.cached_eraseCached leftMem).length_eq]
        exact Nat.lt_succ_self _
    · next apart =>
      refine ensures_pure ⟨rfl, fun other mem block adjacent => ?_⟩
      -- the entry of the index is the only span that ends there
      have entry := (good.byEnd _ other).mpr ⟨mem, rfl⟩
      change (call.heap.extent other).endPage = (call.heap.extent ref).startPage at adjacent
      rw [adjacent, extent, ending, Option.some_inj] at entry
      subst entry
      exact apart (mergeable.mpr ⟨block, adjacent⟩)

def RightMerge (call : HeapCall) (ref : SpanRef) (hand : List SpanRef) : Bool → HeapCall → Prop
  | false, after => after = call ∧ NoRightNeighbour call.heap ref
  | true, after => after.failing = call.failing ∧ Settled after.heap (ref :: hand) ∧
      Frame hand call.heap after.heap ∧
      after.heap.cached.length < call.heap.cached.length

theorem mergeRight_spec (settled : Settled call.heap (ref :: hand)) :
    (mergeRight ref).Returns call (RightMerge call ref hand) := by
  have good := settled.good
  obtain ⟨span, found, aligned, -, -⟩ := good.exists_object Good.mem_hand
  have extent := extent_eq found
  refine ensures_deref found (ensures_getHeap ?_)
  cases starting : call.heap.cachedStartPageToSpan span.endPage with
  | none =>
    refine ensures_pure ⟨rfl, fun other mem _ adjacent => ?_⟩
    have entry := (good.byStart _ other).mpr ⟨mem, rfl⟩
    change (call.heap.extent ref).endPage = (call.heap.extent other).startPage at adjacent
    rw [← adjacent, extent, starting] at entry
    cases entry
  | some right =>
    obtain ⟨rightMem, rightStart⟩ := (good.byStart _ right).mp starting
    have rightOwned : right ∈ call.heap.owned (ref :: hand) :=
      mem_owned.mpr (.inr (.inl rightMem))
    obtain ⟨rightSpan, rightFound, rightAligned, -, -⟩ := good.exists_object rightOwned
    have mergeable := canMerge_iff_tiles found aligned rightFound rightAligned
    refine ensures_deref rightFound ?_
    split
    · next merge =>
      obtain ⟨taken, frame⟩ := settled.eraseCached rightMem
      have swapped : Settled (call.heap.eraseCached right (call.heap.extent right))
          (ref :: right :: hand) := ⟨taken.good.swap, taken.coalesced⟩
      refine (eraseCachedSpan_spec good rightMem).bind ?_
      rintro _ _ rfl
      refine (absorb_spec { call with heap := call.heap.eraseCached right _ } swapped found
        rightFound merge).bind ?_
      rintro _ after ⟨failing, settled, absorbed, cached⟩
      refine ensures_pure ⟨failing, settled, ?_, ?_⟩
      · exact (frame.weaken (fun _ mem => mem_cons_of_mem _ mem)).trans absorbed
      · rw [cached, (good.cached_eraseCached rightMem).length_eq]
        exact Nat.lt_succ_self _
    · next apart =>
      refine ensures_pure ⟨rfl, fun other mem block adjacent => ?_⟩
      have entry := (good.byStart _ other).mpr ⟨mem, rfl⟩
      change (call.heap.extent ref).endPage = (call.heap.extent other).startPage at adjacent
      rw [← adjacent, extent, starting, Option.some_inj] at entry
      subst entry
      exact apart (mergeable.mpr ⟨block, adjacent⟩)

theorem coalesceLoop_spec (fuel : ℕ) (settled : Settled call.heap (ref :: hand))
    (enough : call.heap.cached.length < fuel) :
    (coalesceLoop fuel ref).Returns call fun merged after =>
      after.failing = call.failing ∧ Settled after.heap (merged :: hand) ∧
        Isolated after.heap merged ∧ Frame hand call.heap after.heap := by
  induction fuel generalizing call ref with
  | zero => exact absurd enough (Nat.not_lt_zero _)
  | succ fuel ih =>
    refine (mergeLeft_spec settled).bind ?_
    rintro (_ | left) after merge
    · obtain ⟨rfl, noLeft⟩ := merge
      refine (mergeRight_spec settled).bind ?_
      rintro (_ | _) middle merge
      · obtain ⟨rfl, noRight⟩ := merge
        exact ensures_pure ⟨rfl, settled, ⟨noLeft, noRight⟩, .refl⟩
      · obtain ⟨failing, again, frame, less⟩ := merge
        refine (ih again (by omega)).mono ?_
        rintro merged after ⟨kept, settled, isolated, rest⟩
        exact ⟨kept.trans failing, settled, isolated, frame.trans rest⟩
    · obtain ⟨failing, again, frame, less⟩ := merge
      refine (ih again (by omega)).mono ?_
      rintro merged after ⟨kept, settled, isolated, rest⟩
      exact ⟨kept.trans failing, settled, isolated, frame.trans rest⟩

theorem coalesceSpan_spec (settled : Settled call.heap (ref :: hand)) :
    (coalesceSpan ref).Returns call fun merged after =>
      after.failing = call.failing ∧ Settled after.heap (merged :: hand) ∧
        Isolated after.heap merged ∧ Frame hand call.heap after.heap :=
  ensures_getHeap (coalesceLoop_spec _ settled (Nat.lt_succ_self _))

variable {old : Span}

theorem tile_write (found : heap.objects ref = some old) (keeps : span.toExtent = old.toExtent) :
    PageHeap.tile { heap with objects := update heap.objects ref (some span) } =
      heap.tile := by
  funext next
  refine tile_congr ?_
  by_cases here : next = ref
  · rw [here, extent_eq found, ← keeps]
    exact extent_eq (update_self ..)
  · exact extent_congr (update_of_ne here ..)

theorem Settled.annotate (settled : Settled heap hand)
    (found : heap.objects ref = some old) (keeps : span.toExtent = old.toExtent) :
    Settled { heap with objects := update heap.objects ref (some span) } hand := by
  constructor
  · exact settled.good.write found keeps (by constructor <;> rfl) rfl rfl rfl
      (update_self ..) fun next different => update_of_ne different ..
  · rw [tile_write found keeps]
    exact settled.coalesced

theorem Settled.write (settled : Settled heap (ref :: hand))
    (found : heap.objects ref = some old) (keeps : span.toExtent = old.toExtent) :
    Settled { heap with objects := update heap.objects ref (some span) } (ref :: hand) ∧
      (Isolated heap ref →
        Isolated { heap with objects := update heap.objects ref (some span) } ref) ∧
      Frame hand heap { heap with objects := update heap.objects ref (some span) } := by
  have tiles := tile_write found keeps
  obtain ⟨active, -, held⟩ := settled.good.not_mem
  refine ⟨settled.annotate found keeps, fun isolated => ⟨?_, ?_⟩, ?_⟩
  · unfold NoLeftNeighbour
    rw [tiles]
    exact isolated.left
  · unfold NoRightNeighbour
    rw [tiles]
    exact isolated.right
  · constructor
    case objects =>
      intro next mem
      refine update_of_ne ?_ ..
      rintro rfl
      exact (mem_append.mp mem).elim active held
    all_goals rfl

theorem Settled.refile {buckets : List (ℕ × List SpanRef)} (settled : Settled heap hand)
    (filed : Filed (fun ref => (heap.extent ref).pageCount) buckets)
    (same : all buckets = heap.cached) :
    Settled { heap with freeSpansByPages := buckets } hand ∧
      Frame hand heap { heap with freeSpansByPages := buckets } := by
  have cached : PageHeap.cached { heap with freeSpansByPages := buckets } = heap.cached := same
  refine ⟨⟨settled.good.refile filed (same ▸ .refl _), ?_⟩, ?_⟩
  · rw [cached]
    exact settled.coalesced
  · constructor <;> intros <;> rfl

theorem Settled.insertCached (settled : Settled heap (ref :: hand))
    (isolated : Isolated heap ref) : Settled (heap.insertCached ref (heap.extent ref)) hand := by
  have joined : (heap.insertCached ref (heap.extent ref)).cached.Perm (ref :: heap.cached) :=
    settled.good.cached_insertCached
  obtain ⟨span, found, -, nonempty, -⟩ := settled.good.exists_object Good.mem_hand
  refine ⟨settled.good.insertCached, ?_⟩
  intro left leftIn right rightIn
  rcases mem_cons.mp (joined.mem_iff.mp leftIn) with rfl | leftMem
  · rcases mem_cons.mp (joined.mem_iff.mp rightIn) with rfl | rightMem
    · intro _ adjacent
      change (heap.extent right).endPage = (heap.extent right).startPage at adjacent
      rw [extent_eq found, Extent.endPage] at adjacent
      omega
    · exact isolated.right right rightMem
  · rcases mem_cons.mp (joined.mem_iff.mp rightIn) with rfl | rightMem
    · exact isolated.left left leftMem
    · exact settled.coalesced left leftMem right rightMem

theorem insertCachedSpan_spec (settled : Settled call.heap (ref :: hand))
    (isolated : Isolated call.heap ref) (sure : call.failing = none) :
    (insertCachedSpan ref).Returns call fun _ after =>
      after.failing = none ∧ Settled after.heap hand ∧ Frame hand call.heap after.heap := by
  obtain ⟨span, found, -, -, -⟩ := settled.good.exists_object Good.mem_hand
  obtain ⟨written, stays, frame⟩ := settled.write found (rfl : span.resetObjectInfo.toExtent = _)
  have atRef : update call.heap.objects ref (some span.resetObjectInfo) ref =
      some span.resetObjectInfo := update_self ..
  have extent : PageHeap.extent { call.heap with
      objects := update call.heap.objects ref (some span.resetObjectInfo) } ref =
      span.resetObjectInfo.toExtent := extent_eq atRef
  refine ensures_writeSpan found (ensures_deref atRef (ensures_getHeap ?_))
  refine ensures_allocateEntry sure (ensures_modifyHeap (ensures_allocate sure
    (ensures_modifyHeap (ensures_allocateEntry sure (ensures_modifyHeap
      (ensures_allocateEntry sure ⟨sure, ?_, ?_⟩))))))
  · have inserted := written.insertCached (stays isolated)
    rw [extent] at inserted
    exact inserted
  · exact frame.trans (by constructor <;> intros <;> rfl)

theorem cacheSpan_spec (settled : Settled call.heap (ref :: hand)) (sure : call.failing = none) :
    (cacheSpan ref).Returns call fun _ after =>
      after.failing = none ∧ Settled after.heap hand ∧ Frame hand call.heap after.heap := by
  obtain ⟨span, found, -, -, -⟩ := settled.good.exists_object Good.mem_hand
  obtain ⟨written, -, frame⟩ := settled.write found (rfl : span.resetObjectInfo.toExtent = _)
  refine ensures_writeSpan found ?_
  refine (coalesceSpan_spec written).bind ?_
  rintro merged middle ⟨failing, again, isolated, rest⟩
  refine (insertCachedSpan_spec again isolated (failing.trans sure)).mono ?_
  rintro _ after ⟨kept, final, last⟩
  exact ⟨kept, final, (frame.trans rest).trans last⟩

def CachedTaken (pageCount : ℕ) (call : HeapCall) : Option SpanRef → HeapCall → Prop
  | none, after => after.failing = call.failing ∧ Settled after.heap [] ∧
      Frame [] call.heap after.heap
  | some ref, after => after.failing = call.failing ∧ Settled after.heap [ref] ∧
      Frame [] call.heap after.heap ∧ (after.heap.extent ref).pageCount = pageCount

variable {pageCount : ℕ}

theorem eraseLast_spec {bucket : ℕ × List SpanRef} (settled : Settled call.heap [])
    (bucketMem : bucket ∈ call.heap.freeSpansByPages) (last : bucket.2.getLast? = some ref) :
    (eraseCachedSpan ref).Returns call fun _ after =>
      after.failing = call.failing ∧ Settled after.heap [ref] ∧ Frame [] call.heap after.heap ∧
        (after.heap.extent ref).pageCount = bucket.1 := by
  have inBucket : ref ∈ bucket.2 := mem_of_getLast? last
  have mem : ref ∈ call.heap.cached := mem_all.mpr ⟨bucket, bucketMem, inBucket⟩
  obtain ⟨taken, frame⟩ := settled.eraseCached mem
  refine (eraseCachedSpan_spec settled.good mem).mono ?_
  rintro _ _ rfl
  exact ⟨rfl, taken, frame, settled.good.bySize.keys bucket bucketMem ref inBucket⟩

theorem takeCachedSpan_spec (settled : Settled call.heap []) :
    (takeCachedSpan pageCount).Returns call (CachedTaken pageCount call) := by
  have filed := settled.good.bySize
  refine ensures_getHeap ?_
  cases found : Table.find Prod.fst call.heap.freeSpansByPages pageCount with
  | none => exact ensures_pure ⟨rfl, settled, .refl⟩
  | some bucket =>
    have bucketMem := Table.mem_of_find found
    have key := Table.key_of_find found
    dsimp only
    cases last : bucket.2.getLast? with
    | none =>
      have empty : bucket.2 = [] := List.getLast?_eq_none_iff.mp last
      have cached : all (call.heap.freeSpansByPages.filter (·.1 ≠ pageCount)) =
          call.heap.cached := by
        refine all_filter fun other mem dropped => ?_
        rw [filed.distinct.eq_of_mem mem bucketMem (by simpa [key] using dropped), empty]
      have kept : Filed (fun ref => (call.heap.extent ref).pageCount)
          (call.heap.freeSpansByPages.filter (·.1 ≠ pageCount)) :=
        ⟨filed.distinct.filter _, fun other mem => filed.keys other (mem_of_mem_filter mem)⟩
      exact ensures_modifyHeap (ensures_pure ⟨rfl, settled.refile kept cached⟩)
    | some ref =>
      refine (eraseLast_spec settled bucketMem last).bind ?_
      rintro _ after ⟨failing, taken, frame, size⟩
      exact ensures_pure ⟨failing, taken, frame, size.trans key⟩

theorem bestLarger_eq_some {buckets : List (ℕ × List SpanRef)}
    {bucket : ℕ × List SpanRef} (best : bestLarger pageCount buckets = some bucket) :
    bucket ∈ buckets ∧ pageCount < bucket.1 := by
  have invariant : ∀ (rest : List (ℕ × List SpanRef)) (found : ℕ × Option (ℕ × List SpanRef)),
      (∀ other ∈ rest, other ∈ buckets) →
      (∀ other, found.2 = some other → other ∈ buckets ∧ pageCount < other.1) →
      ∀ other, (rest.foldl (fun best bucket =>
        if bucket.2 = [] then best
        else if pageCount < bucket.1 ∧ bucket.1 < best.1 then (bucket.1, some bucket)
        else best) found).2 = some other → other ∈ buckets ∧ pageCount < other.1 := by
    intro rest
    induction rest with
    | nil => exact fun found _ holds => holds
    | cons first rest ih =>
      intro found subset holds
      refine ih _ (fun other mem => subset other (mem_cons_of_mem _ mem)) ?_
      intro other chosen
      dsimp only at chosen
      split_ifs at chosen with empty larger
      · exact holds other chosen
      · cases chosen
        exact ⟨subset first mem_cons_self, larger.1⟩
      · exact holds other chosen
  refine invariant buckets (sizeMax, none) (fun _ mem => mem) (fun other none => ?_) bucket best
  cases none

def LargerTaken (pageCount : ℕ) (call : HeapCall) : Option SpanRef → HeapCall → Prop
  | none, after => after = call
  | some ref, after => after.failing = call.failing ∧ Settled after.heap [ref] ∧
      Frame [] call.heap after.heap ∧ pageCount < (after.heap.extent ref).pageCount

theorem takeLargerCachedSpan_spec (settled : Settled call.heap []) :
    (takeLargerCachedSpan pageCount).Returns call (LargerTaken pageCount call) := by
  refine ensures_getHeap ?_
  cases best : bestLarger pageCount call.heap.freeSpansByPages with
  | none => exact ensures_pure rfl
  | some bucket =>
    obtain ⟨bucketMem, larger⟩ := bestLarger_eq_some best
    dsimp only
    cases last : bucket.2.getLast? with
    | none => exact ensures_pure rfl
    | some ref =>
      refine (eraseLast_spec settled bucketMem last).bind ?_
      rintro _ after ⟨failing, taken, frame, size⟩
      exact ensures_pure ⟨failing, taken, frame, larger.trans_eq size.symm⟩

theorem Settled.split {other : PageHeap} {needed : ℕ} (settled : Settled heap (ref :: hand))
    (split : Split ref span needed heap other) :
    Settled other (heap.nextRef :: ref :: hand) ∧ Frame hand heap other := by
  obtain ⟨active, cached, held⟩ := settled.good.not_mem
  have good := settled.good.split split
  have sameCached : other.cached = heap.cached := by
    rw [PageHeap.cached, split.freeSpansByPages, PageHeap.cached]
  have kept : ∀ old ∈ heap.owned hand, other.objects old = heap.objects old := by
    intro old mem
    refine split.elsewhere old ?_ ?_
    · rintro rfl
      exact (mem_owned.mp mem).elim active fun rest => rest.elim cached held
    · exact (settled.good.stored.fresh old (owned_cons.mem_iff.mpr (mem_cons_of_mem _ mem))).ne
  refine ⟨settled.of_subset good.swap (fun old mem => sameCached ▸ mem) fun old mem => ?_, ?_⟩
  · exact extent_congr (kept old (mem_owned.mpr (.inr (.inl (sameCached ▸ mem)))))
  · constructor
    case objects =>
      intro old mem
      refine kept old (mem_owned.mpr ?_)
      exact (mem_append.mp mem).elim .inl fun held => .inr (.inr held)
    case allocations => exact split.allocations
    case systemBytes => exact split.systemBytes
    case spans => exact split.spans
    case pageToSpan => exact split.pageToSpan
    case activeBytes => exact split.activeBytes

theorem splitSpan_spec {needed : ℕ} (settled : Settled call.heap (ref :: hand))
    (positive : 0 < needed) (less : needed < (call.heap.extent ref).pageCount)
    (sure : call.failing = none) :
    (splitSpan ref needed).Returns call fun result after =>
      after.failing = none ∧ ∃ remain span, result = some remain ∧
        Settled after.heap (remain :: ref :: hand) ∧ Frame hand call.heap after.heap ∧
        after.heap.objects ref = some (Span.leading span needed) := by
  obtain ⟨span, found, -, -, -⟩ := settled.good.exists_object Good.mem_hand
  rw [extent_eq found] at less
  have notFresh : ref ≠ call.heap.nextRef := (settled.good.stored.fresh ref Good.mem_hand).ne
  have stillFound : update call.heap.objects call.heap.nextRef (some (span.remaining needed))
      ref = some span := by
    rw [update_of_ne notFresh, found]
  have split : Split ref span needed call.heap { call.heap with
      objects := update (update call.heap.objects call.heap.nextRef
        (some (span.remaining needed))) ref (some (span.leading needed))
      nextRef := call.heap.nextRef + 1 } :=
    { found, positive, less
      toSameIndexes := by constructor <;> rfl
      nextRef := rfl, allocations := rfl, systemBytes := rfl
      atRef := update_self ..
      atFresh := (update_of_ne notFresh.symm ..).trans (update_self ..)
      elsewhere := fun old notRef notFresh =>
        (update_of_ne notRef ..).trans (update_of_ne notFresh ..) }
  obtain ⟨after, frame⟩ := settled.split split
  refine ensures_deref found ?_
  rw [if_neg (by omega)]
  refine ensures_bind (ensures_allocate sure (ensures_getHeap (ensures_modifyHeap
    (ensures_pure (ensures_writeSpan stillFound (ensures_pure ?_))))))
  exact ⟨sure, call.heap.nextRef, span, rfl, after, frame, update_self ..⟩

end Cache

end IotProxy.Tcmalloc

import IotProxy.Tcmalloc.SpanCache

/-!
# The calls of the page heap

If no allocation fails, `newSpan` gives a span that is active from then on (`Gained`). `releaseSpan` takes a span from the active ones, and
`purgeCachedSpans` gives the cached spans that are whole blocks back to the system.
-/

namespace IotProxy.Tcmalloc

open List hiding all
open Tiling Index EStateM Function PageHeap

variable {heap : PageHeap}

section Activate

variable {call : HeapCall} {hand : List SpanRef} {ref : SpanRef} {span : Span}

theorem setPages_spec (indices : List ℕ) (first : ℕ)
    (sure : call.failing = none) :
    (indices.forM fun i => setPage ref (first + i)).Returns call fun _ after =>
      ∃ pages, after = { call with heap := { call.heap with pageToSpan := pages } } ∧
        ∀ page, pages page =
          if page ∈ indices.map (first + ·) then some ref else call.heap.pageToSpan page := by
  induction indices generalizing call with
  | nil => exact ⟨call.heap.pageToSpan, rfl, by simp⟩
  | cons i indices ih =>
    refine ensures_bind (ensures_getHeap (ensures_allocateEntry sure (ensures_change ?_)))
    refine Returns.mono (ih sure) ?_
    rintro _ after ⟨pages, rfl, found⟩
    refine ⟨pages, rfl, fun page => ?_⟩
    rw [found page, map_cons]
    by_cases later : page ∈ indices.map (first + ·)
    · rw [if_pos later, if_pos (mem_cons_of_mem _ later)]
    · rw [if_neg later]
      by_cases here : page = first + i
      · rw [here, if_pos mem_cons_self]
        exact update_self ..
      · rw [if_neg (by simp [here, later])]
        exact update_of_ne here ..

theorem registerSpan_spec (found : call.heap.objects ref = some span) (notNull : span.start ≠ 0)
    (nonempty : 0 < span.pageCount) (sure : call.failing = none) :
    (registerSpan ref).Returns call fun _ after =>
      ∃ pages, after = { call with heap := { call.heap with pageToSpan := pages } } ∧
        (∀ page ∈ span.tile.stretch, pages page = some ref) ∧
        ∀ page, page ∉ span.tile.stretch → pages page = call.heap.pageToSpan page := by
  refine ensures_deref found ?_
  rw [if_neg (by omega)]
  refine (setPages_spec _ _ sure).mono ?_
  rintro _ after ⟨pages, rfl, result⟩
  have range : ∀ page, page ∈ (List.range span.pageCount).map (span.startPage + ·) ↔
      page ∈ span.tile.stretch := by
    intro page
    simp only [mem_map, mem_range, Stretch.mem_def, Extent.tile]
    constructor
    · rintro ⟨i, less, rfl⟩
      omega
    · rintro ⟨above, below⟩
      exact ⟨page - span.startPage, by omega, by omega⟩
  refine ⟨pages, rfl, fun page mem => ?_, fun page outside => ?_⟩
  · rw [result, if_pos ((range page).mpr mem)]
  · rw [result, if_neg fun mem => outside ((range page).mp mem)]

theorem erasePages_apply (pages : ℕ → Option SpanRef) (first count page : ℕ) :
    erasePages pages first count page =
      if page ∈ (⟨first, count⟩ : Stretch) then none else pages page := by
  induction count with
  | zero =>
    rw [if_neg]
    · rfl
    · simp only [Stretch.mem_def]
      omega
  | succ count ih =>
    have last : erasePages pages first (count + 1) =
        update (erasePages pages first count) (first + count) none := by
      rw [erasePages, range_succ, foldl_append]
      rfl
    rw [last]
    simp only [Stretch.mem_def] at ih ⊢
    by_cases here : page = first + count
    · rw [here, update_self, if_pos (by omega)]
    · rw [update_of_ne here, ih]
      congr 1
      simp only [eq_iff_iff]
      omega

theorem Settled.activate {pages : ℕ → Option SpanRef}
    (settled : Settled heap (ref :: hand)) (found : heap.objects ref = some span)
    (registered : ∀ page ∈ span.tile.stretch, pages page = some ref)
    (kept : ∀ page, page ∉ span.tile.stretch → pages page = heap.pageToSpan page) :
    Settled { heap with
      spans := heap.spans ++ [ref]
      pageToSpan := pages
      activeBytes := heap.activeBytes + span.bytes } hand := by
  have extent := extent_eq found
  have tile : heap.tile ref = span.tile := by rw [PageHeap.tile, extent]
  rw [← tile] at registered kept
  have good := settled.good.activate registered kept
  rw [extent] at good
  exact ⟨good, settled.coalesced⟩

theorem Settled.deactivate {pages : ℕ → Option SpanRef}
    (settled : Settled heap hand) (mem : ref ∈ heap.spans) (found : heap.objects ref = some span)
    (removed : ∀ page ∈ span.tile.stretch, pages page = none)
    (kept : ∀ page, page ∉ span.tile.stretch → pages page = heap.pageToSpan page) :
    Settled { heap with
      spans := heap.spans.erase ref
      pageToSpan := pages
      activeBytes := heap.activeBytes - span.bytes } (ref :: hand) := by
  have extent := extent_eq found
  have tile : heap.tile ref = span.tile := by rw [PageHeap.tile, extent]
  rw [← tile] at removed kept
  have good := settled.good.deactivate mem removed kept
  rw [extent] at good
  exact ⟨good, settled.coalesced⟩

end Activate

variable {hand : List SpanRef}

section NewSpan

variable {call : HeapCall} {ref : SpanRef} {span : Span} {pageCount : ℕ}

/-- A span of `pageCount` pages has become active. -/
structure Gained (pageCount : ℕ) (before : PageHeap) (ref : SpanRef) (after : PageHeap) : Prop where
  settled : Settled after []
  spans : after.spans = before.spans ++ [ref]
  new : ref ∉ before.spans
  objects : ∀ old ∈ before.spans, after.objects old = before.objects old
  object : ∃ span, after.objects ref = some span ∧ span.resetObjectInfo = span ∧
    span.pageCount = pageCount

/-- How a call for a new span ends. -/
def NewSpan (pageCount : ℕ) (before : PageHeap) (result : Option SpanRef) (after : HeapCall) :
    Prop :=
  ∃ ref, result = some ref ∧ Gained pageCount before ref after.heap

theorem NewSpan.of_frame {middle : PageHeap} {after : HeapCall} {result : Option SpanRef}
    (frame : Frame [] heap middle) (ends : NewSpan pageCount middle result after) :
    NewSpan pageCount heap result after := by
  obtain ⟨ref, rfl, gained⟩ := ends
  refine ⟨ref, rfl, gained.settled, ?_, ?_, ?_, gained.object⟩
  · rw [gained.spans, frame.spans]
  · rw [← frame.spans]
    exact gained.new
  · intro old mem
    rw [gained.objects old (frame.spans ▸ mem), frame.objects old (by simpa using mem)]

theorem newFromCached_spec (settled : Settled call.heap [ref]) (sure : call.failing = none) :
    (newFromCached ref).Returns call (NewSpan (call.heap.extent ref).pageCount call.heap) := by
  obtain ⟨span, found, -, nonempty, notNull⟩ := settled.good.exists_object Good.mem_hand
  obtain ⟨written, -, frame⟩ := settled.write found (rfl : span.resetObjectInfo.toExtent = _)
  have atRef : update call.heap.objects ref (some span.resetObjectInfo) ref =
      some span.resetObjectInfo := update_self ..
  refine ensures_writeSpan found (ensures_attempt (ensures_bind (ensures_allocate sure
    (ensures_change ?_))))
  refine Returns.mono (registerSpan_spec atRef notNull nonempty sure) ?_
  rintro _ _ ⟨pages, rfl, registered, kept⟩
  refine ensures_bind (ensures_deref atRef (ensures_change (ensures_pure ⟨ref, rfl, ?_⟩)))
  constructor
  case settled => exact written.activate atRef registered kept
  case spans => rfl
  case new => exact settled.good.not_mem.1
  case objects =>
    intro old mem
    exact frame.objects old (by simpa using mem)
  case object =>
    rw [extent_eq found]
    exact ⟨_, atRef, rfl, rfl⟩

theorem newFromLarger_spec (settled : Settled call.heap [ref]) (positive : 0 < pageCount)
    (less : pageCount < (call.heap.extent ref).pageCount) (sure : call.failing = none) :
    (newFromLarger ref pageCount).Returns call (NewSpan pageCount call.heap) := by
  refine ensures_attempt ((splitSpan_spec settled positive less sure).mono ?_)
  rintro _ middle ⟨failing, remain, span, rfl, split, frame, leading⟩
  refine ensures_attempt ((cacheSpan_spec split failing).bind ?_)
  rintro _ cached ⟨sure, final, rest⟩
  have found : cached.heap.objects ref = some (span.leading pageCount) := by
    rw [rest.objects ref (by simp), leading]
  obtain ⟨_, again, -, nonempty, notNull⟩ := final.good.exists_object Good.mem_hand
  cases found.symm.trans again
  refine ensures_bind (ensures_allocate sure (ensures_change ?_))
  refine Returns.bind (registerSpan_spec found notNull nonempty sure) ?_
  rintro _ _ ⟨pages, rfl, registered, kept⟩
  refine ensures_deref found (ensures_change (ensures_pure ⟨ref, rfl, ?_⟩))
  have whole : Frame [] call.heap cached.heap :=
    frame.trans (rest.weaken fun _ mem => absurd mem not_mem_nil)
  constructor
  case settled => exact final.activate found registered kept
  case spans =>
    change cached.heap.spans ++ [ref] = _
    rw [whole.spans]
  case new => exact settled.good.not_mem.1
  case objects =>
    intro old mem
    exact whole.objects old (by simpa using mem)
  case object => exact ⟨_, found, rfl, rfl⟩

/-- The system gives whole pages that are not in use. -/
def FreshMemory (heap : PageHeap) (pageCount memory : ℕ) : Prop :=
  memory = pageIdOf memory * kPageSize ∧ 0 < memory ∧
    ∀ block ∈ heap.allocations, block.Apart ⟨pageIdOf memory, pageCount⟩

instance (heap : PageHeap) (pageCount memory : ℕ) : Decidable (FreshMemory heap pageCount memory) :=
  inferInstanceAs (Decidable (_ ∧ _ ∧ _))

theorem ensures_operatorDelete {β : Type} {base : ℕ} {block : Stretch} {next : Unit → HeapM β}
    {post : β → HeapCall → Prop} {raised : HeapError → HeapCall → Prop}
    (found : call.heap.allocations.find? (fun block => block.first * kPageSize = base) = some block)
    (rest : (next ()).Ensures
      { call with heap := { call.heap with allocations := call.heap.allocations.erase block } }
      post raised) :
    (operatorDelete base >>= next).Ensures call post raised := by
  refine ensures_bind (ensures_getHeap ?_)
  rw [found]
  exact ensures_change rest

variable {memory : ℕ}

theorem Settled.place {other : PageHeap} (settled : Settled heap hand)
    (fresh : FreshMemory heap pageCount memory)
    (placed : Placed memory pageCount span heap other) : Settled other (heap.nextRef :: hand) := by
  obtain ⟨onPage, positiveMemory, apart⟩ := fresh
  have notNull : 0 < pageIdOf memory := by
    by_contra zero
    rw [Nat.eq_zero_of_not_pos zero] at onPage
    omega
  have sameCached : other.cached = heap.cached := by
    rw [PageHeap.cached, placed.freeSpansByPages, PageHeap.cached]
  refine settled.of_subset (settled.good.place onPage notNull apart placed) (fun old mem => sameCached ▸ mem) ?_
  intro old mem
  have owned : old ∈ heap.owned hand := mem_owned.mpr (.inr (.inl (sameCached ▸ mem)))
  exact extent_congr (placed.elsewhere old (settled.good.stored.fresh old owned).ne)

theorem newFromSystem_spec (settled : Settled call.heap []) (positive : 0 < pageCount)
    (fresh : FreshMemory call.heap pageCount memory) (sure : call.failing = none) :
    (newFromSystem pageCount memory).Returns call (NewSpan pageCount call.heap) := by
  have unowned : call.heap.nextRef ∉ call.heap.owned [] := fun mem =>
    Nat.lt_irrefl _ (settled.good.stored.fresh _ mem)
  have atFresh : ∀ span : Span, update call.heap.objects call.heap.nextRef (some span)
      call.heap.nextRef = some span := fun span => update_self ..
  have elsewhere : ∀ old, old ≠ call.heap.nextRef → ∀ span : Span,
      update call.heap.objects call.heap.nextRef (some span) old =
        call.heap.objects old := fun old different span => update_of_ne different ..
  have placed : Placed memory pageCount _ call.heap { call.heap with
      objects := update call.heap.objects call.heap.nextRef (some
        { start := memory, pageCount, bytes := pageCount * kPageSize, allocationBase := memory,
          allocationBytes := pageCount * kPageSize })
      nextRef := call.heap.nextRef + 1
      allocations := ⟨pageIdOf memory, pageCount⟩ :: call.heap.allocations
      systemBytes := call.heap.systemBytes + pageCount * kPageSize } :=
    { positive
      toSameIndexes := by constructor <;> rfl
      extent := rfl, nextRef := rfl, allocations := rfl, systemBytes := rfl
      atFresh := atFresh _
      elsewhere := fun old different => elsewhere old different _ }
  refine ensures_attempt (ensures_allocate sure (ensures_change ?_))
  refine ensures_attempt (ensures_allocate sure (ensures_getHeap (ensures_modifyHeap
    (ensures_pure (ensures_attempt (ensures_bind (ensures_allocate sure (ensures_change ?_))))))))
  refine Returns.mono (registerSpan_spec (atFresh _) fresh.2.1.ne' positive sure) ?_
  rintro _ _ ⟨pages, rfl, registered, kept⟩
  refine ensures_modifyHeap (ensures_pure ⟨call.heap.nextRef, rfl, ?_⟩)
  constructor
  case settled => exact (settled.place fresh placed).activate (atFresh _) registered kept
  case spans => rfl
  case new => exact fun mem => unowned (mem_owned.mpr (.inl mem))
  case objects =>
    intro old mem
    refine elsewhere old ?_ _
    exact (settled.good.stored.fresh old (mem_owned.mpr (.inl mem))).ne
  case object => exact ⟨_, atFresh _, rfl, rfl⟩

theorem newSpan_spec (settled : Settled call.heap [])
    (fresh : FreshMemory call.heap pageCount memory) (sure : call.failing = none) :
    (newSpan pageCount memory).Returns call fun result after =>
      (result = none ∧ after = call ∧ (pageCount = 0 ∨ sizeMax / kPageSize < pageCount)) ∨
        NewSpan pageCount call.heap result after := by
  unfold newSpan
  split
  · next outside => exact ensures_pure (.inl ⟨rfl, rfl, outside⟩)
  · next inside =>
    have positive : 0 < pageCount := by omega
    refine (takeCachedSpan_spec settled).bind ?_
    rintro (_ | cached) middle taken
    · obtain ⟨failing, without, frame⟩ := taken
      refine (takeLargerCachedSpan_spec without).bind ?_
      rintro (_ | larger) after taken
      · cases taken
        have stillFresh : FreshMemory middle.heap pageCount memory :=
          ⟨fresh.1, fresh.2.1, frame.allocations ▸ fresh.2.2⟩
        refine (newFromSystem_spec without positive stillFresh (failing.trans sure)).mono ?_
        exact fun result after ends => .inr (ends.of_frame frame)
      · obtain ⟨kept, held, rest, larger⟩ := taken
        refine (newFromLarger_spec held positive larger
          (kept.trans (failing.trans sure))).mono ?_
        exact fun result after ends => .inr (ends.of_frame (frame.trans rest))
    · obtain ⟨failing, held, frame, fits⟩ := taken
      refine (newFromCached_spec held (failing.trans sure)).mono ?_
      intro result after ends
      rw [fits] at ends
      exact .inr (ends.of_frame frame)

end NewSpan

section Release

variable {call : HeapCall} {ref : SpanRef}

def Release (ref : SpanRef) (call : HeapCall) : Bool → HeapCall → Prop
  | true, after => ref ∈ call.heap.spans ∧ after.failing = none ∧ Settled after.heap [] ∧
      after.heap.spans = call.heap.spans.erase ref ∧
      after.heap.allocations = call.heap.allocations ∧
      ∀ old ∈ after.heap.spans, after.heap.objects old = call.heap.objects old
  | false, after => ref ∉ call.heap.spans ∧ after = call

theorem releaseSpan_spec (settled : Settled call.heap []) (sure : call.failing = none) :
    (releaseSpan ref).Returns call (Release ref call) := by
  refine ensures_getHeap ?_
  split
  · next mem =>
    have owned : ref ∈ call.heap.owned [] := mem_owned.mpr (.inl mem)
    obtain ⟨span, found, -, nonempty, notNull⟩ := settled.good.exists_object owned
    refine ensures_modifyHeap (ensures_bind (ensures_deref found ?_))
    rw [if_neg (by omega)]
    refine ensures_change (ensures_deref found (ensures_modifyHeap (ensures_attempt ?_)))
    have apart : Settled { call.heap with
        spans := call.heap.spans.erase ref
        pageToSpan := erasePages call.heap.pageToSpan span.startPage span.pageCount
        activeBytes := call.heap.activeBytes - span.bytes } [ref] := by
      refine settled.deactivate mem found (fun page inside => ?_) fun page outside => ?_
      · rw [erasePages_apply]
        exact if_pos inside
      · rw [erasePages_apply]
        exact if_neg outside
    refine Returns.mono (cacheSpan_spec apart sure) ?_
    rintro _ after ⟨failing, final, frame⟩
    refine ensures_pure ⟨mem, failing, final, frame.spans, frame.allocations, fun old oldMem => ?_⟩
    exact frame.objects old (by simpa [frame.spans] using oldMem)
  · next absent => exact ensures_pure ⟨absent, rfl⟩

end Release

section Purge

variable {call : HeapCall} {heap : PageHeap} {ref : SpanRef} {span : Span} {pages : ℕ}
  {done todo : List (ℕ × List SpanRef)} {kept rest : List SpanRef}

/-- The heap while its cached spans are looked through, with the lists as they will be. -/
abbrev PageHeap.withLists (heap : PageHeap) (buckets : List (ℕ × List SpanRef)) : PageHeap :=
  { heap with freeSpansByPages := buckets }

theorem Settled.purge
    (settled : Settled (heap.withLists (done ++ (pages, kept ++ ref :: rest) :: todo)) [])
    (found : heap.objects ref = some span) (whole : span.isWholeAllocation = true) :
    Settled { heap with
      objects := update heap.objects ref none
      cachedBytes := heap.cachedBytes - span.bytes
      systemBytes := heap.systemBytes - span.bytes
      cachedStartPageToSpan := update heap.cachedStartPageToSpan span.startPage none
      cachedEndPageToSpan := update heap.cachedEndPageToSpan span.endPage none
      allocations := heap.allocations.erase span.tile.block
      freeSpansByPages := done ++ (pages, kept ++ rest) :: todo } [] := by
  set before := heap.withLists (done ++ (pages, kept ++ ref :: rest) :: todo) with beforeDef
  have parts : before.cached.Perm (ref :: all (done ++ (pages, kept ++ rest) :: todo)) := by
    change (all (done ++ (pages, kept ++ ref :: rest) :: todo)).Perm _
    simp only [all, flatMap_append, flatMap_cons]
    refine (perm_middle.append_right _ |>.append_left _).trans ?_
    exact perm_middle
  have mem : ref ∈ before.cached := parts.mem_iff.mpr mem_cons_self
  have extent : before.extent ref = span.toExtent := extent_eq found
  have aligned : span.Aligned := extent ▸
    settled.good.stored.aligned ref (mem_owned.mpr (.inr (.inl mem)))
  -- the span leaves the indexes, then its block is given back, and last the lists are exchanged
  have split := settled.good.cached_eraseCached mem
  have taken := settled.good.eraseCached mem
  rw [extent] at split taken
  have same : SameIndexes (before.eraseCached ref span.toExtent)
      { before.eraseCached ref span.toExtent with
        objects := update heap.objects ref none
        systemBytes := heap.systemBytes - span.bytes
        allocations := heap.allocations.erase span.tile.block } := by constructor <;> rfl
  have tile : (before.eraseCached ref span.toExtent).tile ref = span.tile :=
    congrArg Extent.tile extent
  have bytes : ((before.eraseCached ref span.toExtent).extent ref).bytes = span.bytes :=
    congrArg Extent.bytes extent
  have elsewhere : ∀ old, old ≠ ref → update heap.objects ref none old = heap.objects old :=
    fun old different => update_of_ne different ..
  have freed := taken.free (by rw [tile]; exact (isWholeAllocation_iff aligned).mp whole) same rfl
    (by rw [tile]; rfl) (by rw [bytes]; rfl) (update_self ..) elsewhere
  have sameCached : (all (done ++ (pages, kept ++ rest) :: todo)).Perm
      (before.eraseCached ref span.toExtent).cached := (parts.symm.trans split).cons_inv
  have others : ∀ old ∈ all (done ++ (pages, kept ++ rest) :: todo), old ≠ ref := by
    rintro old oldMem rfl
    have nodup := List.Nodup.of_append_right (List.Nodup.of_append_left settled.good.stored.tiles.nodup)
    exact (nodup_cons.mp (parts.nodup_iff.mp nodup)).1 oldMem
  have filed : Filed (fun old => (before.extent old).pageCount)
      (done ++ (pages, kept ++ rest) :: todo) := by
    have filed := settled.good.bySize
    constructor
    · have distinct := filed.distinct
      simp only [beforeDef, Table.Distinct, map_append, map_cons] at distinct ⊢
      exact distinct
    · intro bucket bucketMem old oldMem
      rcases mem_append.mp bucketMem with before | later
      · exact filed.keys bucket (mem_append_left _ before) old oldMem
      · rcases mem_cons.mp later with rfl | later
        · refine filed.keys (pages, kept ++ ref :: rest) (by simp [beforeDef]) old ?_
          simp only [mem_append, mem_cons] at oldMem ⊢
          tauto
        · exact filed.keys bucket
            (mem_append_right _ (mem_cons_of_mem _ later)) old oldMem
  have good := freed.refile (filed.congr fun old oldMem =>
    congrArg Extent.pageCount (extent_congr (elsewhere old (others old oldMem)))) sameCached
  refine settled.of_subset good (fun old oldMem => ?_) fun old oldMem => ?_
  · exact parts.mem_iff.mpr (mem_cons_of_mem _ oldMem)
  · exact extent_congr (elsewhere old (others old oldMem))

/-- What looking through cached spans leaves alone. Objects are only deleted and blocks only given
back. -/
structure PurgeFrame (before after : PageHeap) : Prop where
  spans : after.spans = before.spans
  pageToSpan : after.pageToSpan = before.pageToSpan
  activeBytes : after.activeBytes = before.activeBytes
  objects : ∀ ref, after.objects ref = none ∨ after.objects ref = before.objects ref
  allocations : ∀ block ∈ after.allocations, block ∈ before.allocations

namespace PurgeFrame

variable {before middle after : PageHeap}

theorem refl : PurgeFrame before before := ⟨rfl, rfl, rfl, fun _ => .inr rfl, fun _ mem => mem⟩

theorem trans (first : PurgeFrame before middle) (second : PurgeFrame middle after) :
    PurgeFrame before after where
  spans := second.spans.trans first.spans
  pageToSpan := second.pageToSpan.trans first.pageToSpan
  activeBytes := second.activeBytes.trans first.activeBytes
  objects ref := by
    rcases second.objects ref with deleted | same
    · exact .inl deleted
    · rw [same]
      exact first.objects ref
  allocations block mem := first.allocations block (second.allocations block mem)

end PurgeFrame

theorem PurgeFrame.tile_eq {before after : PageHeap} (frame : PurgeFrame before after)
    (alive : (after.objects ref).isSome) : after.tile ref = before.tile ref := by
  rcases frame.objects ref with deleted | same
  · rw [deleted] at alive
    cases alive
  · exact tile_congr (extent_congr same)

theorem Settled.isSome_of_cached (settled : Settled heap hand)
    (mem : ref ∈ heap.cached) : (heap.objects ref).isSome :=
  (settled.good.stored.alive ref).mpr (mem_owned.mpr (.inr (.inl mem)))

theorem purgeList_spec (list : List SpanRef)
    (settled : Settled (call.heap.withLists (done ++ (pages, kept ++ list) :: todo)) []) :
    (purgeList list).Returns call fun result after => after.failing = call.failing ∧
      Settled (after.heap.withLists (done ++ (pages, kept ++ result.1) :: todo)) [] ∧
      PurgeFrame call.heap after.heap ∧
      ∀ ref ∈ result.1, (after.heap.tile ref).stretch ≠ (after.heap.tile ref).block := by
  induction list generalizing call kept with
  | nil => exact ensures_pure ⟨rfl, settled, .refl, by simp⟩
  | cons ref list ih =>
    have cached : ref ∈ all (done ++ (pages, kept ++ ref :: list) :: todo) :=
      mem_all.mpr ⟨(pages, kept ++ ref :: list), by simp, by simp⟩
    have owned : ref ∈ (call.heap.withLists (done ++ (pages, kept ++ ref :: list) :: todo)).owned [] :=
      mem_owned.mpr (.inr (.inl cached))
    obtain ⟨span, found, aligned, -, -⟩ := settled.good.exists_object owned
    change call.heap.objects ref = some span at found
    have tile : call.heap.tile ref = span.tile := congrArg Extent.tile (extent_eq found)
    refine ensures_deref found ?_
    split
    · next whole =>
      have block := settled.good.stored.find_block owned
      have notNull : span.allocationBase ≠ 0 := by
        have positive := (settled.good.stored.placed _ (settled.good.stored.tiles.home ref owned)).1
        have base := aligned.base
        change 0 < (call.heap.tile ref).block.first at positive
        rw [tile] at positive
        change 0 < pageIdOf span.allocationBase at positive
        intro null
        rw [null] at positive
        cases positive
      change List.find? (fun block => block.first * kPageSize =
        (call.heap.extent ref).allocationBase) call.heap.allocations =
        some (call.heap.tile ref).block at block
      rw [tile, extent_eq found] at block
      refine ensures_modifyHeap (ensures_bind (ensures_deref found ?_))
      rw [if_pos ⟨whole, notNull⟩]
      refine ensures_operatorDelete block (ensures_deref found (ensures_change ?_))
      refine Returns.bind (ih (settled.purge found whole)) ?_
      rintro result after ⟨failing, final, frame, notWhole⟩
      refine ensures_pure ⟨failing, final, ?_, notWhole⟩
      refine PurgeFrame.trans ?_ frame
      refine ⟨rfl, rfl, rfl, fun old => ?_, fun _ mem => mem_of_mem_erase mem⟩
      by_cases here : old = ref
      · subst here
        exact .inl (update_self ..)
      · exact .inr (update_of_ne here ..)
    · next part =>
      have appended : ∀ others, kept ++ ref :: others = kept ++ [ref] ++ others := by simp
      rw [appended] at settled
      refine (ih settled).bind ?_
      rintro result after ⟨failing, final, frame, notWhole⟩
      rw [← appended] at final
      refine ensures_pure ⟨failing, final, frame, ?_⟩
      simp only [forall_mem_cons]
      refine ⟨?_, notWhole⟩
      have stays : ref ∈ all (done ++ (pages, kept ++ ref :: result.1) :: todo) :=
        mem_all.mpr ⟨(pages, kept ++ ref :: result.1), by simp, by simp⟩
      rw [frame.tile_eq (final.isSome_of_cached stays), tile]
      exact fun whole => part ((isWholeAllocation_iff aligned).mpr whole)

theorem purgeBuckets_spec (buckets : List (ℕ × List SpanRef))
    (settled : Settled (call.heap.withLists (done ++ buckets)) []) :
    (purgeBuckets buckets).Returns call fun result after => after.failing = call.failing ∧
      Settled (after.heap.withLists (done ++ result.1)) [] ∧ PurgeFrame call.heap after.heap ∧
      ∀ ref ∈ all result.1, (after.heap.tile ref).stretch ≠ (after.heap.tile ref).block := by
  induction buckets generalizing call done with
  | nil => exact ensures_pure ⟨rfl, settled, .refl, by simp [all]⟩
  | cons bucket buckets ih =>
    have listed : Settled
        (call.heap.withLists (done ++ (bucket.1, [] ++ bucket.2) :: buckets)) [] := settled
    refine (purgeList_spec bucket.2 listed).bind ?_
    rintro purged middle ⟨failing, between, frame, notWhole⟩
    have appended : ∀ others : List (ℕ × List SpanRef), done ++ (bucket.1, [] ++ purged.1) :: others =
        done ++ [(bucket.1, purged.1)] ++ others := by simp
    rw [appended] at between
    refine (ih between).bind ?_
    rintro others after ⟨kept, final, rest, otherNotWhole⟩
    rw [← appended] at final
    have stay : ∀ ref ∈ purged.1, (after.heap.tile ref).stretch ≠ (after.heap.tile ref).block := by
      intro ref mem
      have cached : ref ∈ all (done ++ (bucket.1, [] ++ purged.1) :: others.1) :=
        mem_all.mpr ⟨(bucket.1, [] ++ purged.1), by simp, mem⟩
      rw [rest.tile_eq (final.isSome_of_cached cached)]
      exact notWhole ref mem
    refine ensures_pure ⟨kept.trans failing, ?_, frame.trans rest, ?_⟩
    · by_cases empty : purged.1 = []
      · -- an empty list is dropped
        have filed := final.good.bySize
        rw [empty] at final filed
        have shorter : Filed (fun ref => (after.heap.extent ref).pageCount) (done ++ others.1) := by
          constructor
          · exact filed.distinct.of_sublist ((sublist_cons_self ..).append_left _)
          · intro other mem
            refine filed.keys other ?_
            simp only [mem_append, mem_cons] at mem ⊢
            tauto
        obtain ⟨dropped, -⟩ := final.refile shorter (by simp [PageHeap.cached, all])
        simp only [empty, if_true]
        exact dropped
      · simp only [empty, if_false]
        exact final
    · intro ref mem
      by_cases empty : purged.1 = []
      · simp only [empty, if_true] at mem
        exact otherNotWhole ref mem
      · simp only [empty, if_false, all, flatMap_cons, mem_append] at mem
        exact mem.elim (stay ref) (otherNotWhole ref)

theorem purgeCachedSpans_spec (settled : Settled call.heap []) :
    purgeCachedSpans.Returns call fun _ after => after.failing = call.failing ∧
      Settled after.heap [] ∧ PurgeFrame call.heap after.heap ∧
      ∀ ref ∈ after.heap.cached, (after.heap.tile ref).stretch ≠ (after.heap.tile ref).block := by
  have listed : Settled (call.heap.withLists ([] ++ call.heap.freeSpansByPages)) [] := settled
  refine ensures_getHeap ((purgeBuckets_spec call.heap.freeSpansByPages listed).bind ?_)
  rintro purged after ⟨failing, final, frame, notWhole⟩
  refine ensures_modifyHeap (ensures_pure ⟨failing, final, ?_, notWhole⟩)
  exact ⟨frame.spans, frame.pageToSpan, frame.activeBytes, frame.objects, frame.allocations⟩

end Purge

end IotProxy.Tcmalloc

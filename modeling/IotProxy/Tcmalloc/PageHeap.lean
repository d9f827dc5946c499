import IotProxy.Lib.Effects
import IotProxy.Lib.Index
import IotProxy.Lib.Tiling

/-!
# The page heap

`PageHeap` hands out spans of pages. A span is either active or cached. The cached spans are indexed
by their page count and by the pages at which they start and end, and the pages of the active spans
are mapped to them.

`Span` objects live in a store and references are never reused, so that using one after its `delete`
is an error of its own. Every allocation inside a call is a point at which the call may fail with
`bad_alloc`; `failing` is the point that fails, if any, and it fails once. Blocks from the system
are stretches of whole pages, and `allocations` are those that have not been given back.
-/

namespace IotProxy.Tcmalloc

open Tiling (Stretch)

def kPageSize : ℕ := 8192

def sizeMax : ℕ := 2 ^ 64 - 1

def kInvalidSizeClass : ℕ := sizeMax

/-- The pages of a span and the block of the system that they are a part of. -/
@[ext]
structure Extent where
  start : ℕ := 0
  pageCount : ℕ := 0
  bytes : ℕ := 0
  allocationBase : ℕ := 0
  allocationBytes : ℕ := 0
  deriving DecidableEq

structure Span extends Extent where
  classIndex : ℕ := kInvalidSizeClass
  objectSize : ℕ := 0
  objectCount : ℕ := 0
  centralFreeCount : ℕ := 0
  deriving DecidableEq

namespace Span

def isWholeAllocation (span : Span) : Bool :=
  span.start = span.allocationBase && span.bytes = span.allocationBytes

def resetObjectInfo (span : Span) : Span := { toExtent := span.toExtent }

def joined (span next : Span) : Span :=
  resetObjectInfo
    { span with pageCount := span.pageCount + next.pageCount, bytes := span.bytes + next.bytes }

def leading (span : Span) (pages : ℕ) : Span :=
  resetObjectInfo { span with pageCount := pages, bytes := pages * kPageSize }

def remaining (span : Span) (pages : ℕ) : Span :=
  { start := span.start + pages * kPageSize
    pageCount := span.pageCount - pages
    bytes := (span.pageCount - pages) * kPageSize
    allocationBase := span.allocationBase
    allocationBytes := span.allocationBytes }

end Span

def pageIdOf (ptr : ℕ) : ℕ := ptr / kPageSize

def Extent.startPage (extent : Extent) : ℕ := pageIdOf extent.start

def Extent.endPage (extent : Extent) : ℕ := extent.startPage + extent.pageCount

/-- The address of a `Span` object. -/
abbrev SpanRef := ℕ

/-- The fields of the page heap, the `Span` objects and the blocks of the system. -/
structure PageHeap where
  objects : SpanRef → Option Span := fun _ => none
  nextRef : SpanRef := 0
  spans : List SpanRef := []
  pageToSpan : ℕ → Option SpanRef := fun _ => none
  freeSpansByPages : List (ℕ × List SpanRef) := []
  cachedStartPageToSpan : ℕ → Option SpanRef := fun _ => none
  cachedEndPageToSpan : ℕ → Option SpanRef := fun _ => none
  activeBytes : ℕ := 0
  cachedBytes : ℕ := 0
  systemBytes : ℕ := 0
  allocations : List Stretch := []

/-- The allocations inside a call. An entry of a map is allocated only for a new key. -/
inductive AllocationPoint where
  | systemMemory
  | spanObject
  /-- The element of `spans_`. -/
  | activeList
  /-- The entry of a page in `page_to_span_`. -/
  | pageEntry (page : ℕ)
  /-- The entry of a page count in `free_spans_by_pages_`. -/
  | sizeEntry
  /-- The element of the list of a page count. -/
  | sizeList
  | startEntry
  | endEntry
  deriving DecidableEq

inductive HeapError where
  | badAlloc
  /-- An object is used that does not exist, or is deleted twice. -/
  | undefined
  deriving DecidableEq

/-- The heap during a call, and the allocation of the call that fails. -/
structure HeapCall where
  heap : PageHeap := {}
  failing : Option AllocationPoint := none

abbrev HeapM := EStateM HeapError HeapCall

section Memory

def getHeap : HeapM PageHeap := do
  let call ← get
  pure call.heap

def modifyHeap (change : PageHeap → PageHeap) : HeapM Unit :=
  modify fun call => { call with heap := change call.heap }

/-- Ask for memory. The failing allocation throws, once. -/
def allocate (point : AllocationPoint) : HeapM Unit := do
  let call ← get
  if call.failing = some point then
    set { call with failing := none }
    throw .badAlloc
  else
    pure ()

/-- Allocate the entry of a map, unless the key has one. -/
def allocateEntry {α : Type} (entry : Option α) (point : AllocationPoint) : HeapM Unit :=
  match entry with
  | some _ => pure ()
  | none => allocate point

/-- Read a `Span` through a pointer. -/
def deref (ref : SpanRef) : HeapM Span := do
  let heap ← getHeap
  match heap.objects ref with
  | some span => pure span
  | none => throw .undefined

def writeSpan (ref : SpanRef) (change : Span → Span) : HeapM Unit := do
  let span ← deref ref
  modifyHeap fun heap =>
    { heap with objects := Function.update heap.objects ref (some (change span)) }

/-- `new Span()`, with the values that are assigned next. -/
def newObject (span : Span) : HeapM SpanRef := do
  allocate .spanObject
  let heap ← getHeap
  modifyHeap fun heap =>
    { heap with
      objects := Function.update heap.objects heap.nextRef (some span)
      nextRef := heap.nextRef + 1 }
  pure heap.nextRef

def deleteObject (ref : SpanRef) : HeapM Unit := do
  let _ ← deref ref
  modifyHeap fun heap => { heap with objects := Function.update heap.objects ref none }

/-- The system gives `pageCount` pages from the address `memory`. -/
def operatorNew (memory pageCount : ℕ) : HeapM Unit := do
  allocate .systemMemory
  modifyHeap fun heap =>
    { heap with allocations := ⟨pageIdOf memory, pageCount⟩ :: heap.allocations }

def operatorDelete (base : ℕ) : HeapM Unit := do
  let heap ← getHeap
  match heap.allocations.find? fun block => block.first * kPageSize = base with
  | some block => modifyHeap fun heap => { heap with allocations := heap.allocations.erase block }
  | none => throw .undefined

/-- `try` with a `catch (...)`: no value if memory ran out. -/
def attempt {α : Type} (action : HeapM α) : HeapM (Option α) :=
  tryCatch (do
    let value ← action
    pure (some value)) fun error =>
      match error with
      | .badAlloc => pure none
      | .undefined => throw .undefined

end Memory

section ActiveSpans

def setPage (ref : SpanRef) (page : ℕ) : HeapM Unit := do
  let heap ← getHeap
  allocateEntry (heap.pageToSpan page) (.pageEntry page)
  modifyHeap fun heap =>
    { heap with pageToSpan := Function.update heap.pageToSpan page (some ref) }

/-- Enter the pages of a span into `page_to_span_`, one after the other. -/
def registerSpan (ref : SpanRef) : HeapM Unit := do
  let span ← deref ref
  if span.start = 0 ∨ span.pageCount = 0 then
    pure ()
  else
    (List.range span.pageCount).forM fun i => setPage ref (span.startPage + i)

def erasePages (pages : ℕ → Option SpanRef) (first count : ℕ) : ℕ → Option SpanRef :=
  (List.range count).foldl (fun pages i => Function.update pages (first + i) none) pages

def unregisterSpan (ref : SpanRef) : HeapM Unit := do
  let span ← deref ref
  if span.start = 0 ∨ span.pageCount = 0 then
    pure ()
  else
    modifyHeap fun heap =>
      { heap with pageToSpan := erasePages heap.pageToSpan span.startPage span.pageCount }

def pushActive (ref : SpanRef) : HeapM Unit := do
  allocate .activeList
  modifyHeap fun heap => { heap with spans := heap.spans ++ [ref] }

end ActiveSpans

section CachedSpans

/-- The cached spans, in the order of the lists of `free_spans_by_pages_`. -/
def PageHeap.cached (heap : PageHeap) : List SpanRef := Index.all heap.freeSpansByPages

/-- File a span by its size, its first page and the page behind it. -/
def insertCachedSpan (ref : SpanRef) : HeapM Unit := do
  writeSpan ref Span.resetObjectInfo
  let span ← deref ref
  let heap ← getHeap
  allocateEntry (Table.find Prod.fst heap.freeSpansByPages span.pageCount) .sizeEntry
  -- the new list stays, also if there is no memory for its element
  modifyHeap fun heap =>
    { heap with freeSpansByPages := Index.reserve heap.freeSpansByPages span.pageCount }
  allocate .sizeList
  modifyHeap fun heap =>
    { heap with freeSpansByPages := Index.push heap.freeSpansByPages span.pageCount ref }
  allocateEntry (heap.cachedStartPageToSpan span.startPage) .startEntry
  modifyHeap fun heap =>
    { heap with
      cachedStartPageToSpan := Function.update heap.cachedStartPageToSpan span.startPage (some ref) }
  allocateEntry (heap.cachedEndPageToSpan span.endPage) .endEntry
  modifyHeap fun heap =>
    { heap with
      cachedEndPageToSpan := Function.update heap.cachedEndPageToSpan span.endPage (some ref)
      cachedBytes := heap.cachedBytes + span.bytes }

def PageHeap.eraseCached (heap : PageHeap) (ref : SpanRef) (extent : Extent) : PageHeap :=
  { heap with
    freeSpansByPages := Index.discard heap.freeSpansByPages extent.pageCount ref
    cachedStartPageToSpan := Function.update heap.cachedStartPageToSpan extent.startPage none
    cachedEndPageToSpan := Function.update heap.cachedEndPageToSpan extent.endPage none
    cachedBytes := heap.cachedBytes - extent.bytes }

def eraseCachedSpan (ref : SpanRef) : HeapM Unit := do
  let span ← deref ref
  modifyHeap fun heap => heap.eraseCached ref span.toExtent

/-- Take a cached span of exactly this size. -/
def takeCachedSpan (pageCount : ℕ) : HeapM (Option SpanRef) := do
  let heap ← getHeap
  match Table.find Prod.fst heap.freeSpansByPages pageCount with
  | none => pure none
  | some bucket =>
    match bucket.2.getLast? with
    | none =>
      modifyHeap fun heap =>
        { heap with freeSpansByPages := heap.freeSpansByPages.filter (·.1 ≠ pageCount) }
      pure none
    | some ref =>
      eraseCachedSpan ref
      pure (some ref)

/-- The nonempty list with the least page count above `pageCount`. -/
def bestLarger (pageCount : ℕ) (buckets : List (ℕ × List SpanRef)) : Option (ℕ × List SpanRef) :=
  (buckets.foldl (fun best bucket =>
    if bucket.2 = [] then best
    else if pageCount < bucket.1 ∧ bucket.1 < best.1 then (bucket.1, some bucket)
    else best) (sizeMax, none)).2

/-- Take a cached span of the next larger size. -/
def takeLargerCachedSpan (pageCount : ℕ) : HeapM (Option SpanRef) := do
  let heap ← getHeap
  match bestLarger pageCount heap.freeSpansByPages with
  | none => pure none
  | some bucket =>
    match bucket.2.getLast? with
    | none => pure none
    | some ref =>
      eraseCachedSpan ref
      pure (some ref)

/-- Cut a span behind its first `neededPages` pages. The rest is a new span of the same block. -/
def splitSpan (ref : SpanRef) (neededPages : ℕ) : HeapM (Option SpanRef) := do
  let span ← deref ref
  if neededPages = 0 ∨ span.pageCount ≤ neededPages then
    pure none
  else
    let remain ← newObject (span.remaining neededPages)
    writeSpan ref fun span => span.leading neededPages
    pure (some remain)

/-- Two spans of one block, the second right behind the first. -/
def canMerge (left right : Span) : Bool :=
  left.allocationBase = right.allocationBase && left.allocationBytes = right.allocationBytes &&
    left.start + left.bytes = right.start

/-- The span `ref` takes over the pages of `next`. -/
def absorb (ref next : SpanRef) : HeapM Unit := do
  let nextSpan ← deref next
  writeSpan ref fun span => span.joined nextSpan
  deleteObject next

/-- Merge a span into the cached span that ends where it starts. -/
def mergeLeft (ref : SpanRef) : HeapM (Option SpanRef) := do
  let span ← deref ref
  let heap ← getHeap
  match heap.cachedEndPageToSpan span.startPage with
  | none => pure none
  | some left =>
    let leftSpan ← deref left
    if canMerge leftSpan span then
      eraseCachedSpan left
      absorb left ref
      pure (some left)
    else
      pure none

/-- Merge the cached span that starts where a span ends into it. -/
def mergeRight (ref : SpanRef) : HeapM Bool := do
  let span ← deref ref
  let heap ← getHeap
  match heap.cachedStartPageToSpan span.endPage with
  | none => pure false
  | some right =>
    let rightSpan ← deref right
    if canMerge span rightSpan then
      eraseCachedSpan right
      absorb ref right
      pure true
    else
      pure false

/-- The loop ends, for every round but the last takes a span out of the cache. -/
def coalesceLoop : ℕ → SpanRef → HeapM SpanRef
  | 0, _ => throw .undefined
  | fuel + 1, ref => do
      match ← mergeLeft ref with
      | some left => coalesceLoop fuel left
      | none =>
        let merged ← mergeRight ref
        if merged then coalesceLoop fuel ref else pure ref

def coalesceSpan (ref : SpanRef) : HeapM SpanRef := do
  let heap ← getHeap
  coalesceLoop (heap.cached.length + 1) ref

/-- Put a span into the cache, joined with its cached neighbours. -/
def cacheSpan (ref : SpanRef) : HeapM Unit := do
  writeSpan ref Span.resetObjectInfo
  let merged ← coalesceSpan ref
  insertCachedSpan merged

def cacheSpanIf (ref : Option SpanRef) : HeapM Unit :=
  match ref with
  | some ref => cacheSpan ref
  | none => pure ()

end CachedSpans

section Calls

def addActiveBytes (ref : SpanRef) : HeapM Unit := do
  let span ← deref ref
  modifyHeap fun heap => { heap with activeBytes := heap.activeBytes + span.bytes }

/-- A cached span of the right size becomes active. -/
def newFromCached (cached : SpanRef) : HeapM (Option SpanRef) := do
  writeSpan cached Span.resetObjectInfo
  let taken ← attempt do
    pushActive cached
    registerSpan cached
  match taken with
  | none =>
    cacheSpan cached
    pure none
  | some _ =>
    addActiveBytes cached
    pure (some cached)

/-- A larger cached span is split. When an exception is caught, `remain` is null if it comes from
the split. -/
def newFromLarger (larger : SpanRef) (pageCount : ℕ) : HeapM (Option SpanRef) := do
  let split ← attempt (splitSpan larger pageCount)
  match split with
  | none =>
    cacheSpan larger
    pure none
  | some remain =>
    let taken ← attempt do
      cacheSpanIf remain
      pushActive larger
      registerSpan larger
      addActiveBytes larger
    match taken with
    | some _ => pure (some larger)
    | none =>
      cacheSpanIf remain
      cacheSpan larger
      pure none

/-- The system is asked for a new block, and it gives the one at `memory`. -/
def newFromSystem (pageCount memory : ℕ) : HeapM (Option SpanRef) := do
  let bytes := pageCount * kPageSize
  let obtained ← attempt (operatorNew memory pageCount)
  match obtained with
  | none => pure none
  | some _ =>
    let made ← attempt (newObject
      { start := memory, pageCount, bytes, allocationBase := memory, allocationBytes := bytes })
    match made with
    | none =>
      operatorDelete memory
      pure none
    | some span =>
      let taken ← attempt do
        pushActive span
        registerSpan span
      match taken with
      | none =>
        operatorDelete memory
        deleteObject span
        pure none
      | some _ =>
        modifyHeap fun heap =>
          { heap with
            activeBytes := heap.activeBytes + bytes
            systemBytes := heap.systemBytes + bytes }
        pure (some span)

/-- Give a span of `pageCount` pages: a cached one, a part of a larger one, or a new block. -/
def newSpan (pageCount memory : ℕ) : HeapM (Option SpanRef) :=
  if pageCount = 0 ∨ sizeMax / kPageSize < pageCount then
    pure none
  else do
    match ← takeCachedSpan pageCount with
    | some cached => newFromCached cached
    | none =>
      match ← takeLargerCachedSpan pageCount with
      | some larger => newFromLarger larger pageCount
      | none => newFromSystem pageCount memory

/-- Give an active span back. It leaves the list of active spans and the page map before it is
cached, and is not put back if there is no memory for that. -/
def releaseSpan (ref : SpanRef) : HeapM Bool := do
  let heap ← getHeap
  if ref ∈ heap.spans then
    modifyHeap fun heap => { heap with spans := heap.spans.erase ref }
    unregisterSpan ref
    let span ← deref ref
    modifyHeap fun heap => { heap with activeBytes := heap.activeBytes - span.bytes }
    let cached ← attempt (cacheSpan ref)
    pure cached.isSome
  else
    pure false

def freeWholeSpanToSystem (ref : SpanRef) : HeapM Unit := do
  let span ← deref ref
  if span.isWholeAllocation ∧ span.allocationBase ≠ 0 then
    operatorDelete span.allocationBase
    deleteObject ref
  else
    deleteObject ref

/-- The spans of a list that are whole blocks are given back to the system. The others stay. -/
def purgeList : List SpanRef → HeapM (List SpanRef × ℕ)
  | [] => pure ([], 0)
  | ref :: rest => do
      let span ← deref ref
      if span.isWholeAllocation then
        modifyHeap fun heap =>
          { heap with
            cachedBytes := heap.cachedBytes - span.bytes
            systemBytes := heap.systemBytes - span.bytes
            cachedStartPageToSpan := Function.update heap.cachedStartPageToSpan span.startPage none
            cachedEndPageToSpan := Function.update heap.cachedEndPageToSpan span.endPage none }
        freeWholeSpanToSystem ref
        let purged ← purgeList rest
        pure (purged.1, purged.2 + 1)
      else
        let purged ← purgeList rest
        pure (ref :: purged.1, purged.2)

def purgeBuckets : List (ℕ × List SpanRef) → HeapM (List (ℕ × List SpanRef) × ℕ)
  | [] => pure ([], 0)
  | bucket :: buckets => do
      let purged ← purgeList bucket.2
      let others ← purgeBuckets buckets
      pure (if purged.1 = [] then others.1 else (bucket.1, purged.1) :: others.1,
        purged.2 + others.2)

/-- Give the cached spans that are whole blocks back to the system. -/
def purgeCachedSpans : HeapM ℕ := do
  let heap ← getHeap
  let purged ← purgeBuckets heap.freeSpansByPages
  modifyHeap fun heap => { heap with freeSpansByPages := purged.1 }
  pure purged.2

end Calls

end IotProxy.Tcmalloc

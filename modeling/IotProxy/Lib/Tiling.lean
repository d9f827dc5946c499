import Mathlib.Data.List.Nodup
import Mathlib.Tactic

/-!
# Tilings of blocks by stretches of pages

Blocks are disjoint stretches of pages. A family of tiles tiles them if every tile is a nonempty
part of its block, no page lies in two tiles, and every page of a block lies in a tile. Tiles are
named by references, and a tile may be cut in two (`Tiles.cut`) or joined with the next one of its
block (`Tiles.join`).

Some of the tiles are free. They are coalesced if none of them ends where another one of the same
block begins. Then a block with free tiles only is one tile (`Tiles.whole_of_free`).
-/

namespace Tiling

open List

universe u

@[ext]
structure Stretch where
  first : ℕ
  count : ℕ
  deriving DecidableEq

variable {page : ℕ}

namespace Stretch

def stop (stretch : Stretch) : ℕ := stretch.first + stretch.count

instance : Membership ℕ Stretch :=
  ⟨fun stretch page => stretch.first ≤ page ∧ page < stretch.first + stretch.count⟩

theorem mem_def {stretch : Stretch} :
    page ∈ stretch ↔ stretch.first ≤ page ∧ page < stretch.first + stretch.count := Iff.rfl

instance (page : ℕ) (stretch : Stretch) : Decidable (page ∈ stretch) :=
  inferInstanceAs (Decidable (_ ∧ _))

theorem first_mem {stretch : Stretch} (nonempty : 0 < stretch.count) : stretch.first ∈ stretch := by
  rw [mem_def]
  omega

theorem last_mem {stretch : Stretch} (nonempty : 0 < stretch.count) :
    stretch.stop - 1 ∈ stretch := by
  rw [mem_def, stop]
  omega

def Apart (left right : Stretch) : Prop := left.stop ≤ right.first ∨ right.stop ≤ left.first

instance (left right : Stretch) : Decidable (left.Apart right) :=
  inferInstanceAs (Decidable (_ ∨ _))

theorem Apart.not_mem {left right : Stretch} (apart : left.Apart right)
    (mem : page ∈ left) : page ∉ right := by
  simp only [Apart, stop, mem_def] at *
  omega

end Stretch

@[ext]
structure Tile where
  stretch : Stretch
  block : Stretch

variable {Ref : Type u} {tile other : Ref → Tile} {refs others : List Ref}
  {blocks : List Stretch}

structure Tiles (tile : Ref → Tile) (refs : List Ref) (blocks : List Stretch) : Prop where
  nodup : refs.Nodup
  distinct : blocks.Nodup
  separate : ∀ left ∈ blocks, ∀ right ∈ blocks, ∀ page ∈ left, page ∈ right → left = right
  nonempty : ∀ ref ∈ refs, 0 < (tile ref).stretch.count
  home : ∀ ref ∈ refs, (tile ref).block ∈ blocks
  inside : ∀ ref ∈ refs, ∀ page ∈ (tile ref).stretch, page ∈ (tile ref).block
  disjoint : ∀ left ∈ refs, ∀ right ∈ refs, ∀ page ∈ (tile left).stretch,
    page ∈ (tile right).stretch → left = right
  covers : ∀ block ∈ blocks, ∀ page ∈ block, ∃ ref ∈ refs, page ∈ (tile ref).stretch

/-- No tile ends where another one of its block begins. -/
def Coalesced (tile : Ref → Tile) (refs : List Ref) : Prop :=
  ∀ left ∈ refs, ∀ right ∈ refs, (tile left).block = (tile right).block →
    (tile left).stretch.stop ≠ (tile right).stretch.first

namespace Tiles

theorem nil : Tiles tile ([] : List Ref) [] := by
  constructor <;> simp

theorem congr (tiles : Tiles tile refs blocks) (same : others.Perm refs)
    (agree : ∀ ref ∈ refs, other ref = tile ref) : Tiles other others blocks where
  nodup := same.nodup_iff.mpr tiles.nodup
  distinct := tiles.distinct
  separate := tiles.separate
  nonempty ref mem := by
    rw [agree ref (same.mem_iff.mp mem)]
    exact tiles.nonempty ref (same.mem_iff.mp mem)
  home ref mem := by
    rw [agree ref (same.mem_iff.mp mem)]
    exact tiles.home ref (same.mem_iff.mp mem)
  inside ref mem := by
    rw [agree ref (same.mem_iff.mp mem)]
    exact tiles.inside ref (same.mem_iff.mp mem)
  disjoint left leftMem right rightMem := by
    rw [agree left (same.mem_iff.mp leftMem), agree right (same.mem_iff.mp rightMem)]
    exact tiles.disjoint left (same.mem_iff.mp leftMem) right (same.mem_iff.mp rightMem)
  covers block mem page inBlock := by
    rcases tiles.covers block mem page inBlock with ⟨ref, refMem, inTile⟩
    refine ⟨ref, same.mem_iff.mpr refMem, ?_⟩
    rw [agree ref refMem]
    exact inTile

theorem perm (tiles : Tiles tile refs blocks) (same : others.Perm refs) :
    Tiles tile others blocks :=
  tiles.congr same fun _ _ => rfl

theorem eq_of_first (tiles : Tiles tile refs blocks) {left right : Ref} (leftMem : left ∈ refs)
    (rightMem : right ∈ refs) (same : (tile left).stretch.first = (tile right).stretch.first) :
    left = right := by
  refine tiles.disjoint left leftMem right rightMem _
    (Stretch.first_mem (tiles.nonempty left leftMem)) ?_
  rw [same]
  exact Stretch.first_mem (tiles.nonempty right rightMem)

theorem eq_of_stop (tiles : Tiles tile refs blocks) {left right : Ref} (leftMem : left ∈ refs)
    (rightMem : right ∈ refs) (same : (tile left).stretch.stop = (tile right).stretch.stop) :
    left = right := by
  refine tiles.disjoint left leftMem right rightMem _
    (Stretch.last_mem (tiles.nonempty left leftMem)) ?_
  rw [same]
  exact Stretch.last_mem (tiles.nonempty right rightMem)

variable {ref : Ref} {block : Stretch}

theorem block_eq (tiles : Tiles tile refs blocks) (mem : ref ∈ refs)
    (blockMem : block ∈ blocks) (inBlock : page ∈ block)
    (inTile : page ∈ (tile ref).stretch) : (tile ref).block = block :=
  tiles.separate _ (tiles.home ref mem) _ blockMem page (tiles.inside ref mem page inTile) inBlock

section Change

variable {ref fresh : Ref}

/-- The tiles `olds` of one block can be exchanged for tiles with the same pages. -/
theorem replace (olds news : List Ref) (tiles : Tiles tile (olds ++ refs) blocks)
    (nodup : (news ++ refs).Nodup) (agree : ∀ old ∈ refs, other old = tile old)
    (nonempty : ∀ new ∈ news, 0 < (other new).stretch.count)
    (block : ∀ new ∈ news, ∀ old ∈ olds, (other new).block = (tile old).block)
    (apart : ∀ left ∈ news, ∀ right ∈ news, ∀ page ∈ (other left).stretch,
      page ∈ (other right).stretch → left = right)
    (pages : ∀ page, (∃ new ∈ news, page ∈ (other new).stretch) ↔
      ∃ old ∈ olds, page ∈ (tile old).stretch) :
    Tiles other (news ++ refs) blocks := by
  have source : ∀ new ∈ news, ∀ page ∈ (other new).stretch, ∃ old ∈ olds,
      page ∈ (tile old).stretch ∧ (other new).block = (tile old).block := by
    intro new mem page inNew
    rcases (pages page).mp ⟨new, mem, inNew⟩ with ⟨old, oldMem, inOld⟩
    exact ⟨old, oldMem, inOld, block new mem old oldMem⟩
  have outside : ∀ new ∈ news, ∀ old ∈ refs, ∀ page ∈ (other new).stretch,
      page ∉ (tile old).stretch := by
    intro new mem old oldMem page inNew inOld
    rcases source new mem page inNew with ⟨gone, goneMem, inGone, -⟩
    have same := tiles.disjoint gone (mem_append_left _ goneMem) old
      (mem_append_right _ oldMem) page inGone inOld
    exact disjoint_of_nodup_append tiles.nodup goneMem (same ▸ oldMem)
  constructor
  case nodup => exact nodup
  case distinct => exact tiles.distinct
  case separate => exact tiles.separate
  case nonempty =>
    refine forall_mem_append.mpr ⟨nonempty, fun old mem => ?_⟩
    rw [agree old mem]
    exact tiles.nonempty old (mem_append_right _ mem)
  case home =>
    refine forall_mem_append.mpr ⟨fun new mem => ?_, fun old mem => ?_⟩
    · rcases source new mem _ (Stretch.first_mem (nonempty new mem)) with ⟨old, oldMem, -, same⟩
      rw [same]
      exact tiles.home old (mem_append_left _ oldMem)
    · rw [agree old mem]
      exact tiles.home old (mem_append_right _ mem)
  case inside =>
    refine forall_mem_append.mpr ⟨fun new mem page inNew => ?_, fun old mem => ?_⟩
    · rcases source new mem page inNew with ⟨old, oldMem, inOld, same⟩
      rw [same]
      exact tiles.inside old (mem_append_left _ oldMem) page inOld
    · rw [agree old mem]
      exact tiles.inside old (mem_append_right _ mem)
  case disjoint =>
    simp only [forall_mem_append]
    refine ⟨fun new mem => ⟨apart new mem, fun old oldMem page inNew inOld => ?_⟩,
      fun old mem => ⟨fun new newMem page inOld inNew => ?_, fun right rightMem => ?_⟩⟩
    · rw [agree old oldMem] at inOld
      exact (outside new mem old oldMem page inNew inOld).elim
    · rw [agree old mem] at inOld
      exact (outside new newMem old mem page inNew inOld).elim
    · rw [agree old mem, agree right rightMem]
      exact tiles.disjoint old (mem_append_right _ mem) right
        (mem_append_right _ rightMem)
  case covers =>
    intro block mem page inBlock
    rcases tiles.covers block mem page inBlock with ⟨old, oldMem, inOld⟩
    rcases mem_append.mp oldMem with gone | kept
    · rcases (pages page).mpr ⟨old, gone, inOld⟩ with ⟨new, newMem, inNew⟩
      exact ⟨new, mem_append_left _ newMem, inNew⟩
    · refine ⟨old, mem_append_right _ kept, ?_⟩
      rw [agree old kept]
      exact inOld

theorem cut (tiles : Tiles tile (ref :: refs) blocks) (unused : fresh ∉ ref :: refs)
    (agree : ∀ old ∈ refs, other old = tile old) (leftBlock : (other ref).block = (tile ref).block)
    (rightBlock : (other fresh).block = (tile ref).block)
    (leftFirst : (other ref).stretch.first = (tile ref).stretch.first)
    (rightFirst : (other fresh).stretch.first = (other ref).stretch.stop)
    (leftNonempty : 0 < (other ref).stretch.count) (rightNonempty : 0 < (other fresh).stretch.count)
    (total : (other ref).stretch.count + (other fresh).stretch.count = (tile ref).stretch.count) :
    Tiles other (ref :: fresh :: refs) blocks := by
  have oneSide : ∀ page ∈ (other ref).stretch, page ∉ (other fresh).stretch := by
    intro page left right
    simp only [Stretch.mem_def, Stretch.stop] at left right rightFirst
    omega
  refine replace [ref] [ref, fresh] tiles ?_ agree ?_ ?_ ?_ fun page => ?_
  · have parts := nodup_cons.mp tiles.nodup
    simp only [mem_cons, not_or] at unused
    simp only [cons_append, nil_append, nodup_cons, mem_cons, not_or]
    exact ⟨⟨Ne.symm unused.1, parts.1⟩, unused.2, parts.2⟩
  · simp [leftNonempty, rightNonempty]
  · simp [leftBlock, rightBlock]
  · simp only [forall_mem_cons]
    exact ⟨⟨fun _ _ _ => trivial, fun page left right => (oneSide page left right).elim, by simp⟩,
      ⟨fun page right left => (oneSide page left right).elim, fun _ _ _ => trivial, by simp⟩, by simp⟩
  · simp only [exists_mem_cons_iff, not_mem_nil, false_and, exists_false, or_false,
      Stretch.mem_def, Stretch.stop] at rightFirst ⊢
    omega

theorem join {next : Ref} (tiles : Tiles tile (ref :: next :: refs) blocks)
    (agree : ∀ old ∈ refs, other old = tile old) (block : (other ref).block = (tile ref).block)
    (first : (other ref).stretch.first = (tile ref).stretch.first)
    (adjacent : (tile ref).stretch.stop = (tile next).stretch.first)
    (sameBlock : (tile ref).block = (tile next).block)
    (total : (other ref).stretch.count = (tile ref).stretch.count + (tile next).stretch.count) :
    Tiles other (ref :: refs) blocks := by
  have nonempty := tiles.nonempty ref mem_cons_self
  refine replace [ref, next] [ref] tiles ?_ agree ?_ ?_ (by simp) fun page => ?_
  · have nodup := tiles.nodup
    simp only [nodup_cons, mem_cons, not_or] at nodup
    exact nodup_cons.mpr ⟨nodup.1.2, nodup.2.2⟩
  · simp only [forall_mem_singleton]
    omega
  · simp [block, sameBlock]
  · simp only [exists_mem_cons_iff, not_mem_nil, false_and, exists_false, or_false,
      Stretch.mem_def, Stretch.stop] at adjacent ⊢
    omega

theorem place (tiles : Tiles tile refs blocks) (unused : ref ∉ refs)
    (agree : ∀ old ∈ refs, other old = tile old) (whole : other ref = ⟨block, block⟩)
    (nonempty : 0 < block.count) (apart : ∀ old ∈ blocks, old.Apart block) :
    Tiles other (ref :: refs) (block :: blocks) := by
  have kept := tiles.congr (.refl refs) agree
  have new : ∀ old ∈ blocks, ∀ page ∈ old, page ∉ block := by
    intro old mem page inOld
    exact (apart old mem).not_mem inOld
  constructor
  case nodup => exact nodup_cons.mpr ⟨unused, tiles.nodup⟩
  case distinct =>
    refine nodup_cons.mpr ⟨fun mem => ?_, tiles.distinct⟩
    exact new block mem _ (Stretch.first_mem nonempty) (Stretch.first_mem nonempty)
  case separate =>
    simp only [forall_mem_cons]
    refine ⟨⟨fun _ _ _ => trivial, fun old mem page inBlock inOld => (new old mem page inOld inBlock).elim⟩,
      fun old mem => ⟨fun page inOld inBlock => (new old mem page inOld inBlock).elim,
        tiles.separate old mem⟩⟩
  case nonempty =>
    refine forall_mem_cons.mpr ⟨?_, kept.nonempty⟩
    rw [whole]
    exact nonempty
  case home =>
    refine forall_mem_cons.mpr ⟨by simp [whole], fun old mem => ?_⟩
    exact mem_cons_of_mem _ (kept.home old mem)
  case inside => exact forall_mem_cons.mpr ⟨by simp [whole], kept.inside⟩
  case disjoint =>
    have outside : ∀ old ∈ refs, ∀ page ∈ (other old).stretch, page ∉ block :=
      fun old mem page inOld => new _ (kept.home old mem) page (kept.inside old mem page inOld)
    simp only [forall_mem_cons, whole]
    exact ⟨⟨fun _ _ _ => trivial, fun old mem page inBlock inOld =>
        (outside old mem page inOld inBlock).elim⟩,
      fun old mem => ⟨fun page inOld inBlock => (outside old mem page inOld inBlock).elim,
        kept.disjoint old mem⟩⟩
  case covers =>
    refine forall_mem_cons.mpr ⟨fun page inBlock => ⟨ref, mem_cons_self, ?_⟩, ?_⟩
    · rw [whole]
      exact inBlock
    · intro old mem page inOld
      rcases kept.covers old mem page inOld with ⟨cover, coverMem, inCover⟩
      exact ⟨cover, mem_cons_of_mem _ coverMem, inCover⟩

theorem remove (tiles : Tiles tile (ref :: refs) blocks)
    (whole : (tile ref).stretch = (tile ref).block) (agree : ∀ old ∈ refs, other old = tile old) :
    Tiles other refs (blocks.erase (tile ref).block) := by
  have refMem : ref ∈ ref :: refs := mem_cons_self
  have oldMem : ∀ old ∈ refs, old ∈ ref :: refs := fun old mem => mem_cons_of_mem _ mem
  have outside : ∀ old ∈ refs, (tile old).block ≠ (tile ref).block := by
    intro old mem same
    have inOld := Stretch.first_mem (tiles.nonempty old (oldMem old mem))
    have inBlock := tiles.inside old (oldMem old mem) _ inOld
    rw [same, ← whole] at inBlock
    have equal := tiles.disjoint old (oldMem old mem) ref refMem _ inOld inBlock
    exact (nodup_cons.mp tiles.nodup).1 (equal ▸ mem)
  have kept : ∀ block, block ∈ blocks.erase (tile ref).block ↔
      block ≠ (tile ref).block ∧ block ∈ blocks := fun block => tiles.distinct.mem_erase_iff
  refine congr ?_ (.refl refs) agree
  constructor
  case nodup => exact (nodup_cons.mp tiles.nodup).2
  case distinct => exact tiles.distinct.erase _
  case separate =>
    intro left leftMem right rightMem
    exact tiles.separate left ((kept left).mp leftMem).2 right ((kept right).mp rightMem).2
  case nonempty => exact fun old mem => tiles.nonempty old (oldMem old mem)
  case home =>
    intro old mem
    rw [kept]
    exact ⟨outside old mem, tiles.home old (oldMem old mem)⟩
  case inside => exact fun old mem => tiles.inside old (oldMem old mem)
  case disjoint =>
    intro left leftMem right rightMem
    exact tiles.disjoint left (oldMem left leftMem) right (oldMem right rightMem)
  case covers =>
    intro block mem page inBlock
    obtain ⟨different, blockMem⟩ := (kept block).mp mem
    rcases tiles.covers block blockMem page inBlock with ⟨old, coverMem, inOld⟩
    rcases mem_cons.mp coverMem with rfl | coverMem
    · have same := tiles.block_eq refMem blockMem inBlock inOld
      exact (different same.symm).elim
    · exact ⟨old, coverMem, inOld⟩

end Change

section Free

variable {taken free : List Ref}

theorem taken_of_stop (tiles : Tiles tile (taken ++ free) blocks)
    (coalesced : Coalesced tile free) (mem : ref ∈ free)
    (more : (tile ref).stretch.stop ∈ (tile ref).block) :
    ∃ next ∈ taken, (tile ref).stretch.stop ∈ (tile next).stretch := by
  have refMem : ref ∈ taken ++ free := mem_append_right _ mem
  rcases tiles.covers _ (tiles.home ref refMem) _ more with ⟨next, nextMem, inNext⟩
  rcases mem_append.mp nextMem with inTaken | inFree
  · exact ⟨next, inTaken, inNext⟩
  · -- the tile of that page begins there, for the page before it is in the tile of `ref`
    have sameBlock := tiles.block_eq nextMem (tiles.home ref refMem) more inNext
    exfalso
    apply coalesced ref mem next inFree sameBlock.symm
    by_contra notFirst
    have nonempty := tiles.nonempty ref refMem
    have both : ref = next := by
      refine tiles.disjoint ref refMem next nextMem _ (Stretch.last_mem nonempty) ?_
      simp only [Stretch.mem_def, Stretch.stop] at inNext notFirst ⊢
      omega
    rw [← both] at inNext
    simp only [Stretch.mem_def, Stretch.stop] at inNext
    omega

/-- Free pages that begin where a free tile does end with it. -/
theorem count_le_of_free (tiles : Tiles tile (taken ++ free) blocks)
    (coalesced : Coalesced tile free) (mem : ref ∈ free) {stretch : Stretch}
    (first : stretch.first = (tile ref).stretch.first)
    (inside : ∀ page ∈ stretch, page ∈ (tile ref).block)
    (untaken : ∀ old ∈ taken, ∀ page ∈ (tile old).stretch, page ∉ stretch) :
    stretch.count ≤ (tile ref).stretch.count := by
  by_contra longer
  have inStretch : (tile ref).stretch.stop ∈ stretch := by
    simp only [Stretch.mem_def, Stretch.stop, first]
    omega
  rcases tiles.taken_of_stop coalesced mem (inside _ inStretch) with ⟨next, inTaken, inNext⟩
  exact untaken next inTaken _ inNext inStretch

/-- If all tiles of a block are free and the free tiles are coalesced, then the block is one
tile. -/
theorem whole_of_free (tiles : Tiles tile (taken ++ free) blocks)
    (coalesced : Coalesced tile free) (blockMem : block ∈ blocks) (nonempty : 0 < block.count)
    (untaken : ∀ ref ∈ taken, (tile ref).block ≠ block) :
    ∃ ref ∈ free, tile ref = ⟨block, block⟩ := by
  rcases tiles.covers block blockMem _ (Stretch.first_mem nonempty) with ⟨ref, refMem, inTile⟩
  have sameBlock := tiles.block_eq refMem blockMem (Stretch.first_mem nonempty) inTile
  have mem : ref ∈ free := by
    rcases mem_append.mp refMem with inTaken | inFree
    · exact (untaken ref inTaken sameBlock).elim
    · exact inFree
  have tileNonempty := tiles.nonempty ref refMem
  have firstIn := tiles.inside ref refMem _ (Stretch.first_mem tileNonempty)
  have lastIn := tiles.inside ref refMem _ (Stretch.last_mem tileNonempty)
  have first : (tile ref).stretch.first = block.first := by
    simp only [Stretch.mem_def, sameBlock] at firstIn inTile
    omega
  have notMore : block.count ≤ (tile ref).stretch.count := by
    refine tiles.count_le_of_free coalesced mem first.symm (by simp [sameBlock]) ?_
    intro old inTaken page inOld inBlock
    exact untaken old inTaken
      (tiles.block_eq (mem_append_left _ inTaken) blockMem inBlock inOld)
  have count : (tile ref).stretch.count = block.count := by
    simp only [Stretch.mem_def, Stretch.stop, sameBlock] at lastIn
    omega
  exact ⟨ref, mem, Tile.ext (Stretch.ext first count) sameBlock⟩

end Free

end Tiles

end Tiling

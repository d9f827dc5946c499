import IotProxy.Myring.MpmcBoundedQueue

/-!
# What the sequence numbers of the bounded queue say

A cell is used by the tickets that are equal modulo the capacity, one after the other. The cell
belongs to the first of them that has not given it back (`Current`), and its sequence number and its
storage tell how far this ticket is (`Shows`).
-/

namespace IotProxy.Myring.MpmcBoundedQueue

open EventSystem List

variable {Value : Type*}

section Tickets

variable (config : QueueConfig) (queue : MpmcBoundedQueue Value)

def Taken (pos : ℕ) : Prop := pos ∈ queue.taken.map Prod.fst

def Released (pos : ℕ) : Prop := config.capacity ≤ pos → pos - config.capacity ∈ queue.removed

def Current (pos : ℕ) : Prop := queue.Released config pos ∧ pos ∉ queue.removed

/-- The cell tells how far its current ticket is. -/
structure Shows (pos : ℕ) (cell : Cell Value) : Prop where
  unpublished : pos ∉ queue.published → cell.sequence = pos
  published : pos ∈ queue.published → cell.sequence = pos + 1
  empty : pos ∉ queue.written ∨ queue.Taken pos → cell.storage = none
  full : pos ∈ queue.written → ¬ queue.Taken pos → cell.storage = queue.values[pos]?

structure Tickets : Prop where
  enqueued : queue.enqueuePos = queue.values.length
  claimed : queue.claims = List.range queue.dequeuePos
  written_lt : ∀ pos ∈ queue.written, pos < queue.enqueuePos
  published_written : ∀ pos ∈ queue.published, pos ∈ queue.written
  claimed_published : ∀ pos < queue.dequeuePos, pos ∈ queue.published
  taken_claimed : ∀ pos, queue.Taken pos → pos < queue.dequeuePos
  removed_taken : ∀ pos ∈ queue.removed, queue.Taken pos
  released : ∀ pos < queue.enqueuePos, queue.Released config pos
  taken_once : (queue.taken.map Prod.fst).Nodup
  taken_value : ∀ entry ∈ queue.taken, queue.values[entry.1]? = some entry.2
  cells : ∀ pos, queue.Current config pos → queue.Shows pos (queue.cell config pos)

end Tickets

variable {config : QueueConfig} {queue : MpmcBoundedQueue Value} {pos other : ℕ} {value : Value}

theorem SameCell.add_capacity_le (same : SameCell config other pos) (earlier : other < pos) :
    other + config.capacity ≤ pos := by
  have divides : config.capacity ∣ pos - other := (Nat.modEq_iff_dvd' earlier.le).mp same
  have := Nat.le_of_dvd (by omega) divides
  omega

theorem SameCell.sub_capacity (same : SameCell config other pos) (large : config.capacity ≤ pos) :
    SameCell config other (pos - config.capacity) :=
  same.trans (Nat.mod_eq_sub_mod large)

theorem create_tickets : Tickets config (create : MpmcBoundedQueue Value) where
  enqueued := rfl
  claimed := rfl
  written_lt := fun _ member => nomatch member
  published_written := fun _ member => nomatch member
  claimed_published := fun _ small => absurd small (Nat.not_lt_zero _)
  taken_claimed := fun _ member => nomatch member
  removed_taken := fun _ member => nomatch member
  released := fun _ small => absurd small (Nat.not_lt_zero _)
  taken_once := nodup_nil
  taken_value := fun _ member => nomatch member
  cells := by
    intro pos current
    have small : pos < config.capacity := by
      by_contra large
      exact absurd (current.1 (Nat.le_of_not_lt large)) not_mem_nil
    rw [cell, indexOf_eq, Nat.mod_eq_of_lt small]
    exact ⟨fun _ => rfl, fun member => (nomatch member), fun _ => rfl, fun member => (nomatch member)⟩

namespace Tickets

section Order

theorem published_lt (tickets : Tickets config queue) (published : pos ∈ queue.published) :
    pos < queue.enqueuePos :=
  tickets.written_lt pos (tickets.published_written pos published)

theorem taken_published (tickets : Tickets config queue) (taken : queue.Taken pos) :
    pos ∈ queue.published :=
  tickets.claimed_published pos (tickets.taken_claimed pos taken)

theorem removed_lt (tickets : Tickets config queue) (removed : pos ∈ queue.removed) :
    pos < queue.enqueuePos :=
  tickets.published_lt (tickets.taken_published (tickets.removed_taken pos removed))

theorem removed_of_same (tickets : Tickets config queue) (same : SameCell config other pos)
    (order : other ≤ pos) (removed : pos ∈ queue.removed) : other ∈ queue.removed := by
  induction pos using Nat.strong_induction_on with
  | _ pos ih =>
    rcases order.eq_or_lt with rfl | earlier
    · exact removed
    · have gap := same.add_capacity_le earlier
      have large : config.capacity ≤ pos := by omega
      have positive := config.capacity_pos
      apply ih (pos - config.capacity) (by omega) (same.sub_capacity large) (by omega)
      exact tickets.released pos (tickets.removed_lt removed) large

theorem current_unique (tickets : Tickets config queue) (same : SameCell config other pos)
    (first : queue.Current config other) (second : queue.Current config pos) : other = pos := by
  have le_of_current {low high : ℕ} (same : SameCell config low high)
      (first : queue.Current config low) (second : queue.Current config high) : high ≤ low := by
    by_contra earlier
    have gap := same.add_capacity_le (Nat.lt_of_not_le earlier)
    have large : config.capacity ≤ high := by omega
    exact first.2 (tickets.removed_of_same (same.sub_capacity large) (by omega) (second.1 large))
  exact le_antisymm (le_of_current same.symm second first) (le_of_current same first second)

theorem exists_current (tickets : Tickets config queue) (pos : ℕ) :
    ∃ owner, SameCell config owner pos ∧ queue.Current config owner := by
  have exists_later : ∃ round, pos % config.capacity + config.capacity * round ∉ queue.removed := by
    refine ⟨queue.enqueuePos, fun removed => ?_⟩
    have small := tickets.removed_lt removed
    have := Nat.le_mul_of_pos_left queue.enqueuePos config.capacity_pos
    omega
  classical
  refine ⟨pos % config.capacity + config.capacity * Nat.find exists_later, ?_, ?_,
    Nat.find_spec exists_later⟩
  · rw [SameCell, Nat.add_mul_mod_self_left, Nat.mod_mod]
  · intro large
    have small := Nat.mod_lt pos config.capacity_pos
    rcases round : Nat.find exists_later with _ | before
    · rw [round] at large
      omega
    · have removed := Nat.find_min exists_later (m := before) (by omega)
      rw [not_not] at removed
      have previous : pos % config.capacity + config.capacity * (before + 1) - config.capacity =
          pos % config.capacity + config.capacity * before := by
        rw [Nat.mul_succ]
        omega
      rwa [previous]

theorem dequeuePos_le (tickets : Tickets config queue) : queue.dequeuePos ≤ queue.enqueuePos := by
  by_contra ahead
  have := tickets.published_lt (tickets.claimed_published _ (Nat.lt_of_not_le ahead))
  omega

theorem current_of_lt (tickets : Tickets config queue) (small : pos < queue.enqueuePos)
    (untaken : ¬ queue.Taken pos) : queue.Current config pos :=
  ⟨tickets.released pos small, fun removed => untaken (tickets.removed_taken pos removed)⟩

theorem enqueuePos_le_of_not_released (tickets : Tickets config queue)
    (blocked : ¬ queue.Released config pos) : queue.enqueuePos ≤ pos :=
  Nat.le_of_not_lt fun small => blocked (tickets.released pos small)

end Order

section Accesses

variable {after : MpmcBoundedQueue Value}

theorem enqueue (tickets : Tickets config queue) (next : queue.enqueuePos = pos)
    (released : queue.Released config pos) (few : queue.values.length + 1 < 2 ^ 63) :
    Tickets config (queue.enqueue value pos) := by
  have advanced : (queue.enqueue value pos).enqueuePos = queue.enqueuePos + 1 := by
    rw [← next]
    apply Counter.wrap_of_lt
    rw [tickets.enqueued]
    omega
  have kept (ticket : ℕ) (small : ticket < queue.enqueuePos) :
      (queue.values ++ [value])[ticket]? = queue.values[ticket]? :=
    List.getElem?_append_left (by rwa [← tickets.enqueued])
  refine { tickets with
    enqueued := ?_, written_lt := ?_, released := ?_, taken_value := ?_, cells := ?_ }
  · rw [advanced, tickets.enqueued, MpmcBoundedQueue.enqueue, length_append]
    rfl
  · intro ticket written
    rw [advanced]
    exact Nat.lt_succ_of_lt (tickets.written_lt ticket written)
  · intro ticket small
    rw [advanced, Nat.lt_succ_iff_lt_or_eq] at small
    rcases small with small | rfl
    · exact tickets.released ticket small
    · rwa [next]
  · intro entry member
    refine (kept _ ?_).trans (tickets.taken_value entry member)
    exact tickets.published_lt (tickets.taken_published (mem_map_of_mem member))
  · intro ticket current
    have shown := tickets.cells ticket current
    refine ⟨shown.unpublished, shown.published, shown.empty, fun written untaken => ?_⟩
    exact (shown.full written untaken).trans (kept ticket (tickets.written_lt ticket written)).symm

theorem cells_of_setCell (tickets : Tickets config queue) (current : queue.Current config pos)
    {cell : Cell Value} (buffer : after.buffer = queue.setCell config pos cell)
    (removed : after.removed = queue.removed) (own : after.Shows pos cell)
    (others : ∀ ticket, ticket ≠ pos → ∀ cell, queue.Shows ticket cell → after.Shows ticket cell)
    (ticket : ℕ) (owns : after.Current config ticket) :
    after.Shows ticket (after.cell config ticket) := by
  have before : queue.Current config ticket := by
    rwa [Current, Released, removed] at owns
  by_cases same : SameCell config ticket pos
  · have ticket_eq := tickets.current_unique same before current
    rwa [cell_of_setCell buffer same, ticket_eq]
  · have different : ticket ≠ pos := fun equal => same (equal ▸ rfl)
    rw [cell_of_setCell_of_not_same buffer same]
    exact others ticket different _ (tickets.cells ticket before)

theorem construct (tickets : Tickets config queue) (small : pos < queue.enqueuePos)
    (held : queue.values[pos]? = some value) (unwritten : pos ∉ queue.written) :
    Tickets config (queue.construct config value pos) := by
  have unpublished : pos ∉ queue.published := fun published =>
    unwritten (tickets.published_written pos published)
  have untaken : ¬ queue.Taken pos := fun taken => unpublished (tickets.taken_published taken)
  have current := tickets.current_of_lt small untaken
  refine { tickets with written_lt := ?_, published_written := ?_, cells := ?_ }
  · intro ticket member
    rcases mem_append.mp member with written | last
    · exact tickets.written_lt ticket written
    · rwa [mem_singleton.mp last]
  · intro ticket published
    exact mem_append_left _ (tickets.published_written ticket published)
  · refine tickets.cells_of_setCell current rfl rfl ?_ ?_
    · have shown := tickets.cells pos current
      refine ⟨shown.unpublished, shown.published, fun gone => ?_, fun _ _ => held.symm⟩
      rcases gone with unwritten | taken
      · exact absurd (mem_append_right _ (mem_singleton_self _)) unwritten
      · exact absurd taken untaken
    · intro ticket different cell shown
      have written_iff : ticket ∈ queue.written ++ [pos] ↔ ticket ∈ queue.written := by
        simp [different]
      refine ⟨shown.unpublished, shown.published, fun gone => ?_, fun written => ?_⟩
      · exact shown.empty (gone.imp_left (mt written_iff.mpr))
      · exact shown.full (written_iff.mp written)

theorem publish (tickets : Tickets config queue) (written : pos ∈ queue.written)
    (unpublished : pos ∉ queue.published) (few : queue.values.length < 2 ^ 63) :
    Tickets config (queue.publish config pos) := by
  have untaken : ¬ queue.Taken pos := fun taken => unpublished (tickets.taken_published taken)
  have small := tickets.written_lt pos written
  have current := tickets.current_of_lt small untaken
  have unwrapped : Counter.wrap (pos + 1) = pos + 1 := by
    apply Counter.wrap_of_lt
    rw [tickets.enqueued] at small
    omega
  refine { tickets with published_written := ?_, claimed_published := ?_, cells := ?_ }
  · intro ticket member
    rcases mem_append.mp member with published | last
    · exact tickets.published_written ticket published
    · rwa [mem_singleton.mp last]
  · intro ticket claimed
    exact mem_append_left _ (tickets.claimed_published ticket claimed)
  · refine tickets.cells_of_setCell current rfl rfl ?_ ?_
    · have shown := tickets.cells pos current
      refine ⟨fun absent => ?_, fun _ => unwrapped, shown.empty, shown.full⟩
      exact absurd (mem_append_right _ (mem_singleton_self _)) absent
    · intro ticket different cell shown
      have published_iff : ticket ∈ queue.published ++ [pos] ↔ ticket ∈ queue.published := by
        simp [different]
      refine ⟨fun absent => ?_, fun published => ?_, shown.empty, shown.full⟩
      · exact shown.unpublished (mt published_iff.mpr absent)
      · exact shown.published (published_iff.mp published)

theorem dequeue (tickets : Tickets config queue) (next : queue.dequeuePos = pos)
    (published : pos ∈ queue.published) (few : queue.values.length < 2 ^ 63) :
    Tickets config (queue.dequeue pos) := by
  have advanced : (queue.dequeue pos).dequeuePos = queue.dequeuePos + 1 := by
    rw [← next] at published ⊢
    apply Counter.wrap_of_lt
    have small := tickets.published_lt published
    rw [tickets.enqueued] at small
    omega
  refine { tickets with
    claimed := ?_, claimed_published := ?_, taken_claimed := ?_, cells := ?_ }
  · rw [advanced, range_succ, ← tickets.claimed, next]
    rfl
  · intro ticket small
    rw [advanced, Nat.lt_succ_iff_lt_or_eq] at small
    rcases small with small | rfl
    · exact tickets.claimed_published ticket small
    · rwa [next]
  · intro ticket taken
    rw [advanced]
    exact Nat.lt_succ_of_lt (tickets.taken_claimed ticket taken)
  · intro ticket current
    have shown := tickets.cells ticket current
    exact ⟨shown.unpublished, shown.published, shown.empty, shown.full⟩

theorem take (tickets : Tickets config queue) (claimed : pos < queue.dequeuePos)
    (untaken : ¬ queue.Taken pos) (held : (queue.cell config pos).storage = some value) :
    Tickets config (queue.take config pos value) := by
  have published := tickets.claimed_published pos claimed
  have current := tickets.current_of_lt (tickets.published_lt published) untaken
  have written := tickets.published_written pos published
  have taken_iff (ticket : ℕ) :
      (queue.take config pos value).Taken ticket ↔ queue.Taken ticket ∨ ticket = pos := by
    simp [Taken, MpmcBoundedQueue.take, or_comm]
  have value_eq : queue.values[pos]? = some value := by
    rw [← held]
    exact ((tickets.cells pos current).full written untaken).symm
  refine { tickets with
    taken_claimed := ?_, removed_taken := ?_, taken_once := ?_, taken_value := ?_, cells := ?_ }
  · intro ticket taken
    rcases (taken_iff ticket).mp taken with taken | rfl
    · exact tickets.taken_claimed ticket taken
    · exact claimed
  · intro ticket removed
    exact (taken_iff ticket).mpr (.inl (tickets.removed_taken ticket removed))
  · simp only [MpmcBoundedQueue.take, map_append, map_cons, map_nil]
    exact tickets.taken_once.append (nodup_singleton _) (disjoint_singleton.mpr untaken)
  · intro entry member
    rcases mem_append.mp member with taken | last
    · exact tickets.taken_value entry taken
    · rw [mem_singleton.mp last]
      exact value_eq
  · refine tickets.cells_of_setCell current rfl rfl ?_ ?_
    · have shown := tickets.cells pos current
      refine ⟨shown.unpublished, shown.published, fun _ => rfl, fun _ kept => ?_⟩
      exact absurd ((taken_iff pos).mpr (.inr rfl)) kept
    · intro ticket different cell shown
      have same : (queue.take config pos value).Taken ticket ↔ queue.Taken ticket := by
        rw [taken_iff, or_iff_left different]
      refine ⟨shown.unpublished, shown.published, fun gone => ?_, fun written kept => ?_⟩
      · exact shown.empty (gone.imp_right same.mp)
      · exact shown.full written (mt same.mpr kept)

theorem release (tickets : Tickets config queue) (taken : queue.Taken pos)
    (unremoved : pos ∉ queue.removed) (few : queue.values.length < 2 ^ 63) :
    Tickets config (queue.release config pos) := by
  have small := tickets.published_lt (tickets.taken_published taken)
  have current : queue.Current config pos := ⟨tickets.released pos small, unremoved⟩
  have positive := config.capacity_pos
  have unwrapped : Counter.wrap (pos + config.capacity) = pos + config.capacity := by
    apply Counter.wrap_of_lt
    rw [tickets.enqueued] at small
    have := config.capacity_le
    omega
  -- The cell has not been given to the next ticket yet.
  have ahead : queue.enqueuePos ≤ pos + config.capacity := by
    apply tickets.enqueuePos_le_of_not_released
    intro released
    have removed := released (Nat.le_add_left _ _)
    rw [Nat.add_sub_cancel] at removed
    exact unremoved removed
  refine { tickets with removed_taken := ?_, released := ?_, cells := ?_ }
  · intro ticket member
    rcases mem_append.mp member with removed | last
    · exact tickets.removed_taken ticket removed
    · rwa [mem_singleton.mp last]
  · intro ticket behind large
    exact mem_append_left _ (tickets.released ticket behind large)
  · intro ticket owns
    have different : ticket ≠ pos := by
      rintro rfl
      exact owns.2 (mem_append_right _ (mem_singleton_self _))
    have unremoved_ticket : ticket ∉ queue.removed := fun removed =>
      owns.2 (mem_append_left _ removed)
    by_cases next : ticket = pos + config.capacity
    · have unwritten : ticket ∉ queue.written := fun written =>
        absurd (tickets.written_lt ticket written) (by omega)
      have unpublished : ticket ∉ queue.published := fun published =>
        unwritten (tickets.published_written ticket published)
      have same : SameCell config ticket pos := by
        rw [SameCell, next, Nat.add_mod_right]
      rw [cell_of_setCell rfl same]
      refine ⟨fun _ => unwrapped.trans next.symm, fun published => absurd published unpublished,
        fun _ => (tickets.cells pos current).empty (.inr taken),
        fun written => absurd written unwritten⟩
    · have before : queue.Current config ticket := by
        refine ⟨fun large => ?_, unremoved_ticket⟩
        rcases mem_append.mp (owns.1 large) with removed | last
        · exact removed
        · have := mem_singleton.mp last
          omega
      have apart : ¬ SameCell config ticket pos := fun same =>
        different (tickets.current_unique same before current)
      have shown := tickets.cells ticket before
      rw [cell_of_setCell_of_not_same rfl apart]
      exact ⟨shown.unpublished, shown.published, shown.empty, shown.full⟩

end Accesses

section Sequences

theorem released_of_sequence (tickets : Tickets config queue)
    (sequence : (queue.cell config pos).sequence = pos) : queue.Released config pos := by
  rcases tickets.exists_current pos with ⟨owner, same, current⟩
  have shown := tickets.cells owner current
  rw [same.cell_eq] at shown
  by_cases published : owner ∈ queue.published
  · -- The number of a published ticket is not that of another ticket of the cell.
    have shifted : owner + 1 = pos := (shown.published published).symm.trans sequence
    have gap := same.add_capacity_le (by omega)
    have two : 2 ≤ config.capacity := Nat.pow_le_pow_right Nat.two_pos config.atLeastTwo
    omega
  · have equal : owner = pos := (shown.unpublished published).symm.trans sequence
    exact equal ▸ current.1

theorem published_of_sequence (tickets : Tickets config queue)
    (sequence : (queue.cell config pos).sequence = pos + 1) : pos ∈ queue.published := by
  rcases tickets.exists_current pos with ⟨owner, same, current⟩
  have shown := tickets.cells owner current
  rw [same.cell_eq] at shown
  by_cases published : owner ∈ queue.published
  · have shifted : owner + 1 = pos + 1 := (shown.published published).symm.trans sequence
    rwa [← Nat.succ_injective shifted]
  · have equal : owner = pos + 1 := (shown.unpublished published).symm.trans sequence
    have gap := SameCell.add_capacity_le same.symm (by omega)
    have two : 2 ≤ config.capacity := Nat.pow_le_pow_right Nat.two_pos config.atLeastTwo
    omega

theorem current_lt (tickets : Tickets config queue) (current : queue.Current config pos) :
    pos < queue.enqueuePos + config.capacity := by
  by_cases large : config.capacity ≤ pos
  · have := tickets.removed_lt (current.1 large)
    omega
  · omega

theorem not_released_of_before (tickets : Tickets config queue)
    (few : queue.values.length + config.capacity ≤ 2 ^ 63)
    (behind : Counter.before (queue.cell config pos).sequence pos = true) :
    ¬ queue.Released config pos := by
  rcases tickets.exists_current pos with ⟨owner, same, current⟩
  have shown := tickets.cells owner current
  rw [same.cell_eq] at shown
  intro released
  rcases Nat.lt_or_ge owner pos with earlier | later
  · have gap := same.add_capacity_le earlier
    have large : config.capacity ≤ pos := by omega
    exact current.2 (tickets.removed_of_same (same.sub_capacity large) (by omega) (released large))
  · have bound := tickets.current_lt current
    have positive := config.capacity_pos
    rw [tickets.enqueued] at bound
    rw [Counter.not_before_of_le] at behind
    · cases behind
    · by_cases published : owner ∈ queue.published
      · rw [shown.published published]
        omega
      · rwa [shown.unpublished published]
    · by_cases published : owner ∈ queue.published
      · have small := tickets.published_lt published
        rw [tickets.enqueued] at small
        rw [shown.published published]
        omega
      · rw [shown.unpublished published]
        omega

theorem not_published_of_before (tickets : Tickets config queue)
    (few : queue.values.length < 2 ^ 63)
    (different : (queue.cell config pos).sequence ≠ pos + 1)
    (behind : Counter.before (queue.cell config pos).sequence (pos + 1) = true) :
    pos ∉ queue.published := by
  rcases tickets.exists_current pos with ⟨owner, same, current⟩
  have shown := tickets.cells owner current
  rw [same.cell_eq] at shown
  intro published
  rcases Nat.lt_trichotomy owner pos with earlier | rfl | later
  · have gap := same.add_capacity_le earlier
    have large : config.capacity ≤ pos := by omega
    have released := tickets.released pos (tickets.published_lt published) large
    exact current.2 (tickets.removed_of_same (same.sub_capacity large) (by omega) released)
  · exact different (shown.published published)
  · have bound := tickets.current_lt current
    rw [tickets.enqueued] at bound
    have close : owner ≤ pos + 2 ^ 63 := by
      by_contra far
      -- The capacity divides half of the range, so the next ticket of the cell is a round later.
      have round : SameCell config (pos + 2 ^ 63) owner := by
        rcases config.capacity_dvd with ⟨rounds, half⟩
        rw [SameCell, half, Nat.add_mul_mod_self_left]
        exact same.symm
      have gap := round.add_capacity_le (Nat.lt_of_not_le far)
      omega
    rw [Counter.not_before_of_le] at behind
    · cases behind
    · by_cases owned : owner ∈ queue.published
      · rw [shown.published owned]
        omega
      · rwa [shown.unpublished owned]
    · by_cases owned : owner ∈ queue.published
      · have small := tickets.published_lt owned
        rw [tickets.enqueued] at small
        rw [shown.published owned]
        omega
      · rw [shown.unpublished owned]
        omega

end Sequences

end Tickets

end IotProxy.Myring.MpmcBoundedQueue

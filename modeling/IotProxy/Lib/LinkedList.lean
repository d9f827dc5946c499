import Mathlib.Tactic

/-!
# Linked lists in a heap

Nodes with a value and a pointer to the next one, in a heap from which they can be freed. The null
pointer is `none`.

A list is given by the pointer to its first node. It is walked with a pointer to the place where the
pointer to the current node is stored, a `Link`: so the first node is no special case, and a list is
changed by one write (`Layout.relink`). `Chain` says which nodes a list consists of. `Layout` says
that the lists of a family, and some loose nodes, share a heap without overlapping, and fill it.
-/

namespace LinkedList

open Function Multiset

universe u

variable {Value : Type u}

structure Node (Value : Type u) where
  value : Value
  next : Option ℕ := none

/-- The addresses from `top` on have never been used. -/
structure Heap (Value : Type u) where
  node : ℕ → Option (Node Value)
  top : ℕ
  unused : ∀ address, top ≤ address → node address = none

variable {address : ℕ}

namespace Heap

def empty : Heap Value where
  node _ := none
  top := 0
  unused _ _ := rfl

def store (heap : Heap Value) (address : ℕ) (node : Node Value) : Heap Value where
  node := Function.update heap.node address (some node)
  top := max heap.top (address + 1)
  unused other above := by
    rw [Function.update_of_ne (by omega)]
    exact heap.unused other (by omega)

def erase (heap : Heap Value) (address : ℕ) : Heap Value where
  node := Function.update heap.node address none
  top := heap.top
  unused other above := by
    by_cases here : other = address
    · rw [here, Function.update_self]
    · rw [Function.update_of_ne here]
      exact heap.unused other above

def fresh (heap : Heap Value) (wish : ℕ) : ℕ :=
  if (heap.node wish).isNone then wish else heap.top

def alloc (heap : Heap Value) (wish : ℕ) (value : Value) : Heap Value × ℕ :=
  (heap.store (heap.fresh wish) { value }, heap.fresh wish)

def free (heap : Heap Value) (address : ℕ) : Option (Heap Value) :=
  if (heap.node address).isSome then some (heap.erase address) else none

def setNext (heap : Heap Value) (address : ℕ) (next : Option ℕ) : Option (Heap Value) :=
  (heap.node address).map fun node => heap.store address { node with next }

variable {heap : Heap Value}

theorem setNext_eq {node : Node Value} (isNode : heap.node address = some node) (next : Option ℕ) :
    heap.setNext address next = some (heap.store address { node with next }) := by
  rw [setNext, isNode]
  rfl

@[simp] theorem node_store_self (node : Node Value) :
    (heap.store address node).node address = some node :=
  update_self _ _ _

theorem node_store_of_ne {other : ℕ} (different : other ≠ address)
    (node : Node Value) : (heap.store address node).node other = heap.node other :=
  update_of_ne different _ _

theorem node_erase_of_ne {other : ℕ} (different : other ≠ address) :
    (heap.erase address).node other = heap.node other :=
  update_of_ne different _ _

theorem node_fresh (heap : Heap Value) (wish : ℕ) : heap.node (heap.fresh wish) = none := by
  unfold fresh
  split_ifs with free
  · exact Option.isNone_iff_eq_none.mp free
  · exact heap.unused heap.top le_rfl

theorem lt_top_of_node (allocated : heap.node address ≠ none) : address < heap.top := by
  by_contra above
  exact allocated (heap.unused address (by omega))

end Heap

/-- Where a pointer is stored: at the beginning of a list, or in a node. -/
inductive Link where
  | head
  | next (address : ℕ)
  deriving DecidableEq

section Operations

variable (heap : Heap Value) (first : Option ℕ)

def read : Link → Option (Option ℕ)
  | .head => some first
  | .next address => (heap.node address).map Node.next

def write (pointer : Option ℕ) : Link → Option (Heap Value × Option ℕ)
  | .head => some (heap, pointer)
  | .next address => (heap.setNext address pointer).map fun heap => (heap, first)

def walk : ℕ → Link → Option Link
  | 0, link => (read heap first link).map fun _ => link
  | steps + 1, link =>
    match read heap first link with
    | none => none
    | some none => some link
    | some (some address) => walk steps (.next address)

def seek (test : Value → Bool) : ℕ → Link → Option (Option Link)
  | 0, _ => none
  | fuel + 1, link =>
    match read heap first link with
    | none => none
    | some none => some none
    | some (some address) =>
      match heap.node address with
      | none => none
      | some node =>
        if test node.value then some (some link) else seek test fuel (.next address)

def last : ℕ → ℕ → Option ℕ
  | 0, _ => none
  | fuel + 1, address =>
    match heap.node address with
    | none => none
    | some ⟨_, none⟩ => some address
    | some ⟨_, some next⟩ => last fuel next

def collect : ℕ → Option ℕ → Option (List Value)
  | 0, _ => some []
  | _ + 1, none => some []
  | room + 1, some address =>
    match heap.node address with
    | none => none
    | some node => (collect room node.next).map (node.value :: ·)

end Operations

def freeAll : ℕ → Heap Value → Option ℕ → Option (Heap Value)
  | _, heap, none => some heap
  | 0, _, some _ => none
  | fuel + 1, heap, some address =>
    match heap.node address with
    | none => none
    | some node =>
      ((heap.setNext address none).bind (·.free address)).bind fun heap =>
        freeAll fuel heap node.next

inductive Chain (heap : Heap Value) : Option ℕ → List (ℕ × Value) → Prop where
  | nil : Chain heap none []
  | cons {address : ℕ} {value : Value} {next : Option ℕ} {cells : List (ℕ × Value)}
      (here : heap.node address = some ⟨value, next⟩) (rest : Chain heap next cells) :
      Chain heap (some address) ((address, value) :: cells)

def addresses (cells : List (ℕ × Value)) : List ℕ :=
  cells.map Prod.fst

def values (cells : List (ℕ × Value)) : List Value :=
  cells.map Prod.snd

theorem addresses_middle (before after : List (ℕ × Value)) (cell : ℕ × Value) :
    (addresses (before ++ cell :: after) : Multiset ℕ) =
      cell.1 ::ₘ (addresses (before ++ after) : Multiset ℕ) := by
  rw [cons_coe, coe_eq_coe, addresses, addresses, ← List.map_cons]
  exact List.perm_middle.map Prod.fst

namespace Chain

variable {heap after : Heap Value} {first : Option ℕ} {cells others : List (ℕ × Value)}

theorem frame (chain : Chain heap first cells)
    (agree : ∀ address ∈ addresses cells, after.node address = heap.node address) :
    Chain after first cells := by
  induction chain with
  | nil => exact .nil
  | cons here rest ih =>
    apply Chain.cons
    · rw [agree _ (by simp [addresses])]
      exact here
    · apply ih
      intro address isAddress
      exact agree address (List.mem_cons_of_mem _ isAddress)

theorem unique (chain : Chain heap first cells) (other : Chain heap first others) :
    cells = others := by
  induction chain generalizing others with
  | nil =>
    cases other
    rfl
  | cons here rest ih =>
    cases other with
    | cons alsoHere otherRest =>
      obtain ⟨rfl, rfl⟩ := Node.mk.inj (Option.some.inj (here.symm.trans alsoHere))
      rw [ih otherRest]

theorem node_ne_none (chain : Chain heap first cells) :
    ∀ address ∈ addresses cells, heap.node address ≠ none := by
  induction chain with
  | nil => simp [addresses]
  | cons here rest ih =>
    intro address isAddress
    rcases List.mem_cons.mp isAddress with rfl | later
    · simp [here]
    · exact ih address later

theorem exists_suffix (chain : Chain heap first cells) (isAddress : address ∈ addresses cells) :
    ∃ before later, cells = before ++ later ∧ Chain heap (some address) later := by
  induction chain with
  | nil => simp [addresses] at isAddress
  | @cons current value next cells here rest ih =>
    rcases List.mem_cons.mp isAddress with rfl | further
    · exact ⟨[], _, rfl, .cons here rest⟩
    · obtain ⟨before, later, rfl, isSuffix⟩ := ih further
      exact ⟨(current, value) :: before, later, rfl, isSuffix⟩

theorem nodup (chain : Chain heap first cells) : (addresses cells).Nodup := by
  induction chain with
  | nil => simp [addresses]
  | @cons address value next cells here rest ih =>
    apply List.nodup_cons.mpr
    refine ⟨?_, ih⟩
    intro again
    obtain ⟨before, later, isCells, fromAgain⟩ := rest.exists_suffix again
    have same := congrArg List.length ((Chain.cons here rest).unique fromAgain)
    rw [isCells] at same
    simp at same
    omega

theorem length_le_top (chain : Chain heap first cells) : cells.length ≤ heap.top := by
  have below : addresses cells ⊆ List.range heap.top := by
    intro address isAddress
    exact List.mem_range.mpr (Heap.lt_top_of_node (chain.node_ne_none address isAddress))
  simpa [addresses] using (chain.nodup.subperm below).length_le

end Chain

def linkAt (cells : List (ℕ × Value)) : ℕ → Link
  | 0 => .head
  | position + 1 => (cells[position]?).elim .head fun cell => .next cell.1

variable {cell : ℕ × Value}

section Loops

variable {heap : Heap Value} {first : Option ℕ} {cells : List (ℕ × Value)} {position : ℕ}

theorem linkAt_succ (found : cells[position]? = some cell) :
    linkAt cells (position + 1) = .next cell.1 := by
  rw [linkAt, found]
  rfl

theorem Chain.node_at (chain : Chain heap first cells) (found : cells[position]? = some cell) :
    heap.node cell.1 = some ⟨cell.2, (cells[position + 1]?).map Prod.fst⟩ := by
  induction chain generalizing position with
  | nil => simp at found
  | cons here rest ih =>
    cases position with
    | zero =>
      cases found
      cases rest with
      | nil => exact here
      | cons => exact here
    | succ position => exact ih found

theorem Chain.drop (chain : Chain heap first cells) (position : ℕ) :
    Chain heap ((cells[position]?).map Prod.fst) (cells.drop position) := by
  induction chain generalizing position with
  | nil =>
    rw [List.drop_nil]
    exact .nil
  | cons here rest ih =>
    cases position with
    | zero => exact .cons here rest
    | succ position => exact ih position

theorem Chain.read_linkAt (chain : Chain heap first cells) (inRange : position ≤ cells.length) :
    read heap first (linkAt cells position) = some ((cells[position]?).map Prod.fst) := by
  cases position with
  | zero =>
    cases chain with
    | nil => rfl
    | cons => rfl
  | succ position =>
    have found := List.getElem?_eq_getElem inRange
    rw [linkAt_succ found, read, chain.node_at found]
    rfl

theorem Chain.walk_linkAt (chain : Chain heap first cells) (inRange : position ≤ cells.length)
    (steps : ℕ) : walk heap first steps (linkAt cells position) =
      some (linkAt cells (min (position + steps) cells.length)) := by
  induction steps generalizing position with
  | zero =>
    rw [walk, chain.read_linkAt inRange, Nat.add_zero, min_eq_left inRange]
    rfl
  | succ steps ih =>
    rw [walk, chain.read_linkAt inRange]
    by_cases more : position < cells.length
    · have found := List.getElem?_eq_getElem more
      simp only [found, Option.map_some]
      rw [← linkAt_succ found, ih more]
      congr 2
      omega
    · rw [List.getElem?_eq_none (by omega)]
      have atEnd : min (position + (steps + 1)) cells.length = position := by omega
      rw [atEnd]
      rfl

theorem Chain.walk_head (chain : Chain heap first cells) (steps : ℕ) :
    walk heap first steps .head = some (linkAt cells (min steps cells.length)) := by
  have walked := chain.walk_linkAt (Nat.zero_le _) steps
  rwa [zero_add] at walked

theorem Chain.seek_linkAt (chain : Chain heap first cells) (inRange : position ≤ cells.length)
    {test : Value → Bool} {fuel : ℕ} (enough : cells.length < position + fuel) :
    seek heap first test fuel (linkAt cells position) =
      some ((((values cells).drop position).findIdx? test).map fun index =>
        linkAt cells (position + index)) := by
  induction fuel generalizing position with
  | zero => omega
  | succ fuel ih =>
    rw [seek, chain.read_linkAt inRange]
    by_cases more : position < cells.length
    · have found := List.getElem?_eq_getElem more
      have ahead : (values cells).drop position =
          cells[position].2 :: (values cells).drop (position + 1) := by
        rw [List.drop_eq_getElem_cons (by simpa [values] using more)]
        simp [values]
      simp only [found, Option.map_some, chain.node_at found, ahead, List.findIdx?_cons]
      split_ifs with passes
      · rfl
      · rw [← linkAt_succ found, ih more (by omega), Option.map_map]
        congr 2
        funext index
        simp [Nat.add_assoc, Nat.add_comm 1]
    · have atEnd : (values cells).drop position = [] :=
        List.drop_eq_nil_of_le (by simpa [values] using more)
      rw [List.getElem?_eq_none (by omega), atEnd]
      rfl

theorem Chain.last_eq {fuel : ℕ} (chain : Chain heap (some address) cells)
    (enough : cells.length ≤ fuel) :
    ∃ final, last heap fuel address = some final ∧ linkAt cells cells.length = .next final := by
  induction fuel generalizing address cells with
  | zero =>
    cases chain
    simp at enough
  | succ fuel ih =>
    cases chain with
    | cons here rest =>
      cases rest with
      | nil => exact ⟨address, by rw [last, here], rfl⟩
      | cons nextHere nextRest =>
        obtain ⟨final, isLast, isLink⟩ := ih (.cons nextHere nextRest) (by simpa using enough)
        refine ⟨final, ?_, isLink⟩
        rw [last, here]
        exact isLast

theorem Chain.collect_eq (chain : Chain heap first cells) (room : ℕ) :
    collect heap room first = some ((values cells).take room) := by
  induction chain generalizing room with
  | nil => cases room <;> rfl
  | cons here rest ih =>
    cases room with
    | zero => rfl
    | succ room =>
      rw [collect, here]
      simp only
      rw [ih room]
      rfl

end Loops

section Layout

universe v

variable {Index : Type v} [Fintype Index]

def held (cells : Index → List (ℕ × Value)) (loose : Multiset ℕ) : Multiset ℕ :=
  loose + ∑ list, (addresses (cells list) : Multiset ℕ)

/-- The lists and the loose nodes have no node in common, and there is no other node. -/
structure Layout (heap : Heap Value) (firsts : Index → Option ℕ)
    (cells : Index → List (ℕ × Value)) (loose : Multiset ℕ) : Prop where
  chains : ∀ list, Chain heap (firsts list) (cells list)
  nodup : (held cells loose).Nodup
  owned : ∀ address, heap.node address ≠ none ↔ address ∈ held cells loose

variable {heap : Heap Value} {firsts : Index → Option ℕ} {cells : Index → List (ℕ × Value)}
  {loose : Multiset ℕ} {list : Index} {address : ℕ}

theorem mem_held_of_loose (isLoose : address ∈ loose) : address ∈ held cells loose :=
  mem_add.mpr (.inl isLoose)

theorem held_cons (address : ℕ) : held cells (address ::ₘ loose) = address ::ₘ held cells loose :=
  cons_add address loose _

theorem Layout.alloc (layout : Layout heap firsts cells loose) (wish : ℕ) (value : Value) :
    Layout (heap.alloc wish value).1 firsts cells (heap.fresh wish ::ₘ loose) where
  chains list := by
    apply (layout.chains list).frame
    intro other isOther
    apply update_of_ne
    rintro rfl
    exact (layout.chains list).node_ne_none _ isOther (heap.node_fresh wish)
  nodup := by
    rw [held_cons, nodup_cons]
    refine ⟨?_, layout.nodup⟩
    intro isHeld
    exact (layout.owned _).mpr isHeld (heap.node_fresh wish)
  owned other := by
    rw [held_cons, mem_cons]
    by_cases here : other = heap.fresh wish
    · simp [here, Heap.alloc, Heap.store]
    · simpa [Heap.alloc, Heap.store, here] using layout.owned other

variable [DecidableEq Index]

theorem held_eq (cells : Index → List (ℕ × Value)) (loose : Multiset ℕ) (list : Index) :
    held cells loose = loose + addresses (cells list) +
      ∑ other ∈ Finset.univ.erase list, (addresses (cells other) : Multiset ℕ) := by
  rw [held, ← Finset.add_sum_erase Finset.univ _ (Finset.mem_univ list), add_assoc]

variable {loose' : Multiset ℕ}

theorem held_update {new : List (ℕ × Value)}
    (same : loose' + addresses new = loose + addresses (cells list)) :
    held (update cells list new) loose' = held cells loose := by
  rw [held_eq _ _ list, held_eq cells loose list, update_self, same]
  congr 1
  apply Finset.sum_congr rfl
  intro other isOther
  rw [update_of_ne (Finset.ne_of_mem_erase isOther)]

theorem mem_held_of_cells (isCell : address ∈ addresses (cells list)) :
    address ∈ held cells loose := by
  rw [held_eq cells loose list]
  exact mem_add.mpr (.inl (mem_add.mpr (.inr isCell)))

variable {pointer : Option ℕ} {tail : List (ℕ × Value)}

namespace Layout

theorem not_mem_of_loose (layout : Layout heap firsts cells loose) (isLoose : address ∈ loose)
    (list : Index) : address ∉ addresses (cells list) := by
  intro isCell
  have apart := layout.nodup
  rw [held_eq cells loose list, add_assoc] at apart
  have disjoint := (nodup_add.mp apart).2.2
  exact disjoint_left.mp disjoint isLoose (mem_add.mpr (.inl isCell))

theorem not_mem_of_other (layout : Layout heap firsts cells loose)
    (isCell : address ∈ addresses (cells list)) {other : Index} (different : other ≠ list) :
    address ∉ addresses (cells other) := by
  intro alsoCell
  have apart := layout.nodup
  rw [held_eq cells loose list] at apart
  have disjoint := (nodup_add.mp apart).2.2
  apply disjoint_left.mp disjoint (mem_add.mpr (.inr isCell))
  exact mem_sum.mpr
    ⟨other, Finset.mem_erase.mpr ⟨different, Finset.mem_univ other⟩, alsoCell⟩

theorem store (layout : Layout heap firsts cells loose) (isLoose : address ∈ loose)
    (node : Node Value) : Layout (heap.store address node) firsts cells loose where
  chains list := by
    apply (layout.chains list).frame
    intro other isOther
    apply update_of_ne
    rintro rfl
    exact layout.not_mem_of_loose isLoose list isOther
  nodup := layout.nodup
  owned other := by
    by_cases here : other = address
    · simp [here, Heap.store, mem_held_of_loose isLoose]
    · simpa [Heap.store, here] using layout.owned other

theorem setNext (layout : Layout heap firsts cells loose) (isLoose : address ∈ loose)
    (next : Option ℕ) :
    ∃ after, heap.setNext address next = some after ∧ Layout after firsts cells loose := by
  obtain ⟨node, isNode⟩ := Option.ne_none_iff_exists'.mp
    ((layout.owned address).mpr (mem_held_of_loose isLoose))
  exact ⟨_, Heap.setNext_eq isNode next, layout.store isLoose _⟩

theorem free (layout : Layout heap firsts cells (address ::ₘ loose)) :
    heap.free address = some (heap.erase address) ∧
      Layout (heap.erase address) firsts cells loose := by
  have isLoose : address ∈ address ::ₘ loose := mem_cons_self address loose
  have apart := layout.nodup
  rw [held_cons, nodup_cons] at apart
  refine ⟨?_, ?_, apart.2, ?_⟩
  · have allocated := (layout.owned address).mpr (mem_held_of_loose isLoose)
    rw [Heap.free, if_pos (Option.isSome_iff_ne_none.mpr allocated)]
  · intro list
    apply (layout.chains list).frame
    intro other isOther
    apply update_of_ne
    rintro rfl
    exact layout.not_mem_of_loose isLoose list isOther
  · intro other
    by_cases here : other = address
    · simpa [here, Heap.erase] using apart.1
    · have owned := layout.owned other
      rw [held_cons, mem_cons] at owned
      simpa [Heap.erase, here] using owned

theorem rechain (layout : Layout heap firsts cells loose) (isTail : Chain heap pointer tail)
    (same : loose' + addresses tail = loose + addresses (cells list)) :
    Layout heap (update firsts list pointer) (update cells list tail) loose' where
  chains other := by
    by_cases here : other = list
    · subst here
      rw [update_self, update_self]
      exact isTail
    · rw [update_of_ne here, update_of_ne here]
      exact layout.chains other
  nodup := by
    rw [held_update same]
    exact layout.nodup
  owned := by
    rw [held_update same]
    exact layout.owned

end Layout

theorem Chain.splice {first : Option ℕ} {whole : List (ℕ × Value)} {position : ℕ}
    (chain : Chain heap first whole) (found : whole[position]? = some cell)
    (isTail : Chain heap pointer tail) (apart : cell.1 ∉ addresses tail) :
    Chain (heap.store cell.1 ⟨cell.2, pointer⟩) first (whole.take (position + 1) ++ tail) := by
  induction chain generalizing position with
  | nil => simp at found
  | @cons address value next rest here chain ih =>
    have distinct := (Chain.cons here chain).nodup
    cases position with
    | zero =>
      cases found
      apply Chain.cons
      · exact update_self _ _ _
      · apply isTail.frame
        intro other isOther
        apply update_of_ne
        rintro rfl
        exact apart isOther
    | succ position =>
      rw [List.getElem?_cons_succ] at found
      apply Chain.cons
      · have isLater : cell.1 ∈ addresses rest :=
          List.mem_map_of_mem (List.mem_of_getElem? found)
        have different : address ≠ cell.1 := by
          rintro rfl
          exact (List.nodup_cons.mp distinct).1 isLater
        rw [Heap.node_store_of_ne different]
        exact here
      · exact ih found

/-- A list is changed by one write: the nodes up to a position stay, and others follow. What is in
the list no more is loose, and what comes into it was loose. -/
theorem Layout.relink (layout : Layout heap firsts cells loose) {position : ℕ}
    (inRange : position ≤ (cells list).length) (isTail : Chain heap pointer tail)
    (same : loose' + addresses ((cells list).take position ++ tail) =
      loose + addresses (cells list)) :
    ∃ after first, write heap (firsts list) pointer (linkAt (cells list) position) =
        some (after, first) ∧
      Layout after (update firsts list first)
        (update cells list ((cells list).take position ++ tail)) loose' := by
  cases position with
  | zero => exact ⟨heap, pointer, rfl, layout.rechain isTail same⟩
  | succ position =>
    have found := List.getElem?_eq_getElem inRange
    set cell := (cells list)[position] with isCell
    have isMember : cell.1 ∈ addresses (cells list) :=
      List.mem_map_of_mem (List.mem_of_getElem? found)
    have apart : cell.1 ∉ addresses tail := by
      have isKept : cell ∈ (cells list).take (position + 1) := by
        apply List.mem_of_getElem? (i := position)
        simp [found]
      have distinct := layout.nodup
      rw [held_eq cells loose list, ← same] at distinct
      have inList := (nodup_add.mp (nodup_add.mp distinct).1).2.1
      rw [coe_nodup, addresses, List.map_append, List.nodup_append] at inList
      intro isTail
      exact inList.2.2 cell.1 (List.mem_map_of_mem isKept) cell.1 isTail rfl
    refine ⟨heap.store cell.1 ⟨cell.2, pointer⟩, firsts list, ?_, ?_, ?_, ?_⟩
    · rw [linkAt_succ found, write, Heap.setNext, (layout.chains list).node_at found]
      rfl
    · intro other
      by_cases here : other = list
      · subst here
        rw [update_self, update_self]
        exact (layout.chains other).splice found isTail apart
      · rw [update_of_ne here, update_of_ne here]
        apply (layout.chains other).frame
        intro address isAddress
        apply update_of_ne
        rintro rfl
        exact layout.not_mem_of_other isMember here isAddress
    · rw [held_update same]
      exact layout.nodup
    · intro address
      rw [held_update same]
      by_cases here : address = cell.1
      · simp [here, Heap.store, mem_held_of_cells isMember]
      · simpa [Heap.store, here] using layout.owned address

theorem Layout.freeAll {chain : List (ℕ × Value)} {fuel : ℕ}
    (layout : Layout heap firsts cells (addresses chain + loose)) (isChain : Chain heap pointer chain)
    (enough : chain.length ≤ fuel) :
    ∃ after, LinkedList.freeAll fuel heap pointer = some after ∧
      Layout after firsts cells loose := by
  induction chain generalizing heap pointer fuel with
  | nil =>
    cases isChain
    exact ⟨heap, by rw [LinkedList.freeAll], by simpa [addresses] using layout⟩
  | cons cell chain ih =>
    have distinct := isChain.nodup
    cases isChain with
    | @cons address value next _ here rest =>
      obtain ⟨fuel, rfl⟩ := Nat.exists_eq_succ_of_ne_zero (Nat.ne_of_gt (Nat.zero_lt_of_lt enough))
      have isLoose : address ∈ (addresses ((address, value) :: chain) : Multiset ℕ) + loose := by
        simp [addresses]
      have cleared := layout.store isLoose ⟨value, none⟩
      have isCons : (addresses ((address, value) :: chain) : Multiset ℕ) + loose =
          address ::ₘ (addresses chain + loose) := by
        rw [addresses, List.map_cons, ← cons_coe, cons_add]
        rfl
      rw [isCons] at cleared
      obtain ⟨freed, remaining⟩ := cleared.free
      have stays : Chain ((heap.store address ⟨value, none⟩).erase address) next chain := by
        apply rest.frame
        intro other isOther
        have different : other ≠ address := by
          rintro rfl
          exact (List.nodup_cons.mp distinct).1 isOther
        rw [Heap.node_erase_of_ne different, Heap.node_store_of_ne different]
      obtain ⟨after, freedAll, isLayout⟩ := ih remaining stays (by simpa using enough)
      refine ⟨after, ?_, isLayout⟩
      rw [LinkedList.freeAll, here]
      simp only [Heap.setNext, here, Option.map_some, Option.bind_some, freed]
      exact freedAll

end Layout

end LinkedList

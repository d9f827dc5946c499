import IotProxy.Lib.Run

/-!
# The free list of the allocator

`FreeList` links free objects through their own first words, so its state is the memory together
with the pointer to the first object and the number of objects. The null pointer is `none`.

`Call.onNodes` is what a call does to a list of nodes. `FreeList` does the same to the chain that
starts at its head (`exec_refines`), after any sequence of calls and of writes to objects that are
not in the list.
-/

namespace IotProxy.Tcmalloc

open Function List

abbrev Memory : Type := ℕ → Option ℕ

/-- The head and the length of the list, whose links are in the memory of its nodes. -/
structure FreeList where
  next : Memory
  head : Option ℕ := none
  size : ℕ := 0

namespace FreeList

structure Range where
  first : Option ℕ := none
  last : Option ℕ := none
  count : ℕ := 0

def push (list : FreeList) (obj : ℕ) : FreeList where
  next := update list.next obj list.head
  head := some obj
  size := list.size + 1

def pop (list : FreeList) : Option ℕ × FreeList :=
  match list.head with
  | none => (none, list)
  | some obj =>
    (some obj,
      { next := update list.next obj none
        head := list.next obj
        size := list.size - 1 })

def pushRange (list : FreeList) (first last count : ℕ) : FreeList where
  next := update list.next last list.head
  head := some first
  size := list.size + count

/-- The loop of `popRange`, with the number of objects that are still wanted. -/
def advance (next : Memory) (last count : ℕ) : ℕ → ℕ × ℕ
  | 0 => (last, count)
  | wanted + 1 =>
    match next last with
    | none => (last, count)
    | some following => advance next following (count + 1) wanted

def popRange (list : FreeList) (n : ℕ) : Range × FreeList :=
  match list.head with
  | none => ({}, list)
  | some first =>
    let (last, count) := advance list.next first 1 (n - 1)
    ({ first := some first, last := some last, count },
      { next := update list.next last none
        head := list.next last
        size := list.size - count })

/-- The loop of `countIf`; it is `none` when `fuel` rounds are not enough. -/
def countLoop (next : Memory) (pred : ℕ → Bool) : ℕ → Option ℕ → ℕ → Option ℕ
  | _, none, count => some count
  | 0, some _, _ => none
  | fuel + 1, some cur, count =>
    countLoop next pred fuel (next cur) (if pred cur then count + 1 else count)

def countIf (list : FreeList) (pred : ℕ → Bool) : Option ℕ :=
  countLoop list.next pred list.size list.head 0

def unlink (list : FreeList) (prev : Option ℕ) (cur : ℕ) : FreeList :=
  let nxt := list.next cur
  match prev with
  | none =>
    { next := update list.next cur none, head := nxt, size := list.size - 1 }
  | some prev =>
    { next := update (update list.next prev nxt) cur none
      head := list.head
      size := list.size - 1 }

/-- The loop of `removeIf`; it is `none` when `fuel` rounds are not enough. -/
def removeLoop (pred : ℕ → Bool) :
    ℕ → Option ℕ → Option ℕ → ℕ → FreeList → Option (ℕ × FreeList)
  | _, none, _, removed, list => some (removed, list)
  | 0, some _, _, _, _ => none
  | fuel + 1, some cur, prev, removed, list =>
    if pred cur then
      removeLoop pred fuel (list.next cur) prev (removed + 1) (list.unlink prev cur)
    else removeLoop pred fuel (list.next cur) (some cur) removed list

def removeIf (list : FreeList) (pred : ℕ → Bool) : Option (ℕ × FreeList) :=
  removeLoop pred list.size list.head none 0 list

/-- A call, or a write of another owner to an object. The range that is pushed consists of `first`
and the nodes `others` after it. -/
inductive Call where
  | push (obj : ℕ)
  | pop
  | pushRange (first : ℕ) (others : List ℕ)
  | popRange (n : ℕ)
  | countIf (pred : ℕ → Bool)
  | removeIf (pred : ℕ → Bool)
  | write (obj : ℕ) (value : Option ℕ)

inductive Answer where
  | done
  | object (obj : Option ℕ)
  | range (range : Range)
  | count (count : ℕ)

/-- What a call does; `none` when one of its loops has not ended after as many rounds as the list
has objects. -/
def exec (list : FreeList) : Call → Option (Answer × FreeList)
  | .push obj => some (.done, list.push obj)
  | .pop => some (.object list.pop.1, list.pop.2)
  | .pushRange first others =>
    some (.done, list.pushRange first (others.getLastD first) (others.length + 1))
  | .popRange n => some (.range (list.popRange n).1, (list.popRange n).2)
  | .countIf pred => (list.countIf pred).map (.count ·, list)
  | .removeIf pred => (list.removeIf pred).map fun result => (.count result.1, result.2)
  | .write obj value => some (.done, { list with next := update list.next obj value })

variable {next next' : Memory} {first stop : Option ℕ} {front back nodes kept : List ℕ}

/-- The pointers lead from `first` through the nodes to the pointer `stop`. -/
def Segment (next : Memory) : Option ℕ → List ℕ → Option ℕ → Prop
  | first, [], stop => first = stop
  | first, node :: nodes, stop => first = some node ∧ Segment next (next node) nodes stop

theorem segment_append :
    Segment next first (front ++ back) stop ↔
      ∃ middle, Segment next first front middle ∧ Segment next middle back stop := by
  induction front generalizing first with
  | nil => simp [Segment]
  | cons node front ih => simp [Segment, ih, and_assoc]

theorem Segment.frame (segment : Segment next first nodes stop)
    (same : ∀ node ∈ nodes, next' node = next node) : Segment next' first nodes stop := by
  induction nodes generalizing first with
  | nil => exact segment
  | cons node nodes ih =>
    rw [forall_mem_cons] at same
    refine ⟨segment.1, ?_⟩
    rw [same.1]
    exact ih segment.2 same.2

theorem Segment.write {node : ℕ} {value : Option ℕ} (segment : Segment next first nodes stop)
    (outside : node ∉ nodes) : Segment (update next node value) first nodes stop :=
  segment.frame fun _ inside => update_of_ne (ne_of_mem_of_not_mem inside outside) _ _

theorem Segment.next_last {node : ℕ} (segment : Segment next first (node :: nodes) stop) :
    next (nodes.getLastD node) = stop := by
  induction nodes generalizing first node with
  | nil => exact segment.2
  | cons second nodes ih =>
    rw [getLastD_cons]
    exact ih segment.2

/-- Writing the last pointer of a segment makes it lead elsewhere. -/
theorem Segment.relink {node : ℕ} (segment : Segment next first (node :: nodes) stop)
    (nodup : (node :: nodes).Nodup) (target : Option ℕ) :
    Segment (update next (nodes.getLastD node) target) first (node :: nodes) target := by
  induction nodes generalizing first node with
  | nil => exact ⟨segment.1, update_self ..⟩
  | cons second nodes ih =>
    rw [nodup_cons] at nodup
    refine ⟨segment.1, ?_⟩
    rw [getLastD_cons, update_of_ne (ne_of_mem_of_not_mem getLastD_mem_cons nodup.1).symm]
    exact ih segment.2 nodup.2

/-- The list consists of the nodes: the chain from the head to the null pointer, without a node
that occurs twice, and the size. -/
structure Represents (list : FreeList) (nodes : List ℕ) : Prop where
  chain : Segment list.next list.head nodes none
  nodup : nodes.Nodup
  size : list.size = nodes.length

namespace Call

/-- What a call does to a list of nodes. -/
def onNodes (nodes : List ℕ) : Call → List ℕ
  | push obj => obj :: nodes
  | pop => nodes.tail
  | pushRange first others => first :: others ++ nodes
  | popRange n => nodes.drop n
  | countIf _ | write _ _ => nodes
  | removeIf pred => nodes.filter (!pred ·)

/-- What a call may be given: objects that are not in the list, and a range that the memory
links. -/
def Allowed (list : FreeList) (nodes : List ℕ) : Call → Prop
  | push obj | write obj _ => obj ∉ nodes
  | pushRange first others =>
    (first :: others ++ nodes).Nodup ∧
      ∃ stop, Segment list.next (some first) (first :: others) stop
  | popRange n => 0 < n
  | _ => True

def arguments : Call → List ℕ
  | push obj | write obj _ => [obj]
  | pushRange first others => first :: others
  | _ => []

/-- The answer of a call on a list of nodes; the pointers of a range that is returned are read in
the memory after the call. -/
def Answers (nodes : List ℕ) (next : Memory) (answer : Answer) : Call → Prop
  | pop => answer = .object nodes.head?
  | popRange n =>
    ∃ range, answer = .range range ∧ Segment next range.first (nodes.take n) none ∧
      range.last = (nodes.take n).getLast? ∧ range.count = min n nodes.length
  | countIf pred | removeIf pred => answer = .count (nodes.countP pred)
  | _ => answer = .done

end Call

/-- The call returns, the list is then the one that it should be, and no other object's pointer has
changed. -/
def Refines (list : FreeList) (nodes : List ℕ) (call : Call) : Prop :=
  ∃ answer after, list.exec call = some (answer, after) ∧ Represents after (call.onNodes nodes) ∧
    call.Answers nodes after.next answer ∧
    ∀ node ∉ nodes, node ∉ call.arguments → after.next node = list.next node

variable {list : FreeList} {obj : ℕ}

theorem Represents.write (represents : Represents list nodes) (outside : obj ∉ nodes)
    (value : Option ℕ) :
    Represents { list with next := update list.next obj value } nodes :=
  ⟨represents.chain.write outside, represents.nodup, represents.size⟩

theorem Represents.pushRange {others : List ℕ} (represents : Represents list nodes)
    (nodup : (obj :: others ++ nodes).Nodup)
    (linked : Segment list.next (some obj) (obj :: others) stop) :
    Represents (list.pushRange obj (others.getLastD obj) (others.length + 1))
      (obj :: others ++ nodes) where
  chain := by
    have apart := nodup_append'.mp nodup
    exact segment_append.mpr ⟨list.head, linked.relink apart.1 _,
      represents.chain.write (apart.2.2 getLastD_mem_cons)⟩
  nodup := nodup
  size := by simp [FreeList.pushRange, represents.size]; omega

theorem advance_eq {last count wanted : ℕ} (chain : Segment next (next last) nodes none) :
    advance next last count wanted =
      ((nodes.take wanted).getLastD last, count + min wanted nodes.length) := by
  induction wanted generalizing last count nodes with
  | zero => simp [advance]
  | succ wanted ih =>
    cases nodes with
    | nil =>
      have ended : next last = none := chain
      simp [advance, ended]
    | cons node nodes =>
      simp only [advance, chain.1, ih chain.2, take_succ_cons, getLastD_cons,
        length_cons, Prod.mk.injEq, true_and]
      omega

theorem Represents.popRange {n : ℕ} (represents : Represents list nodes) (positive : 0 < n) :
    (list.popRange n).1 = ⟨nodes.head?, (nodes.take n).getLast?, min n nodes.length⟩ ∧
    Segment (list.popRange n).2.next nodes.head? (nodes.take n) none ∧
    Represents (list.popRange n).2 (nodes.drop n) ∧
    ∀ node ∉ nodes, (list.popRange n).2.next node = list.next node := by
  cases nodes with
  | nil =>
    have empty : list.head = none := represents.chain
    simpa [FreeList.popRange, empty, Segment] using represents
  | cons obj nodes =>
    obtain ⟨wanted, rfl⟩ := Nat.exists_eq_succ_of_ne_zero (Nat.ne_of_gt positive)
    rcases represents with ⟨⟨atHead, chain⟩, nodup, size⟩
    have whole : Segment list.next (some obj) (obj :: nodes.take wanted ++ nodes.drop wanted)
        none := by
      rw [cons_append, take_append_drop]
      exact ⟨rfl, chain⟩
    have parts := nodup
    rw [← take_append_drop wanted nodes, ← cons_append, nodup_append'] at parts
    rcases segment_append.mp whole with ⟨middle, taken, left⟩
    simp only [FreeList.popRange, atHead, Nat.succ_sub_one, advance_eq chain, taken.next_last]
    refine ⟨?_, taken.relink parts.1 _, ⟨left.write (parts.2.2 getLastD_mem_cons), parts.2.1, ?_⟩,
      fun node outside => update_of_ne ?_ ..⟩
    · simp [List.getLast?_cons, Nat.add_min_add_right, Nat.add_comm]
    · simp only [size, length_cons, drop_succ_cons, length_drop]
      omega
    · rintro rfl
      exact outside (cons_subset_cons _ (take_subset ..) getLastD_mem_cons)

theorem pop_eq_popRange : list.pop = ((list.popRange 1).1.first, (list.popRange 1).2) := by
  cases filled : list.head <;> simp [pop, popRange, advance, filled]

theorem countLoop_eq {pred : ℕ → Bool} {fuel count : ℕ} (chain : Segment next first nodes none)
    (enough : nodes.length ≤ fuel) :
    countLoop next pred fuel first count = some (count + nodes.countP pred) := by
  induction nodes generalizing first fuel count with
  | nil =>
    cases chain
    simp [countLoop]
  | cons node nodes ih =>
    rcases chain with ⟨rfl, chain⟩
    cases fuel with
    | zero => simp at enough
    | succ fuel =>
      rw [countLoop, ih chain (by simpa using enough)]
      cases decided : pred node with
      | true =>
        simp [decided]
        omega
      | false => simp [decided]

theorem unlink_spec (chain : Segment list.next list.head kept (some obj))
    (nodup : (kept ++ obj :: nodes).Nodup) :
    Segment (list.unlink kept.getLast? obj).next (list.unlink kept.getLast? obj).head kept
        (list.next obj) ∧
      (∀ node ∉ kept, node ≠ obj → (list.unlink kept.getLast? obj).next node = list.next node) ∧
      (list.unlink kept.getLast? obj).size = list.size - 1 := by
  cases kept with
  | nil =>
    exact ⟨rfl, fun _ _ other => update_of_ne other .., rfl⟩
  | cons node others =>
    rw [nodup_append'] at nodup
    rw [List.getLast?_cons, ← getLastD_eq_getLast?]
    have outside : obj ∉ node :: others := fun inside => nodup.2.2 inside mem_cons_self
    refine ⟨(chain.relink nodup.1 _).write outside, fun other apart different => ?_, rfl⟩
    simp only [unlink, update_of_ne different]
    exact update_of_ne (ne_of_mem_of_not_mem getLastD_mem_cons apart).symm ..

/-- The nodes that are behind `cur` are those that the loop has kept. -/
theorem removeLoop_spec {fuel : ℕ} {cur : Option ℕ} (pred : ℕ → Bool) (removed : ℕ)
    (behind : Segment list.next list.head kept cur) (ahead : Segment list.next cur nodes none)
    (nodup : (kept ++ nodes).Nodup) (size : list.size = (kept ++ nodes).length)
    (enough : nodes.length ≤ fuel) :
    ∃ after, removeLoop pred fuel cur kept.getLast? removed list =
        some (removed + nodes.countP pred, after) ∧
      Represents after (kept ++ nodes.filter (!pred ·)) ∧
      ∀ node ∉ kept ++ nodes, after.next node = list.next node := by
  induction nodes generalizing list kept cur fuel removed with
  | nil =>
    cases ahead
    refine ⟨list, by simp [removeLoop], ⟨?_, nodup, size⟩, fun _ _ => rfl⟩
    simpa using behind
  | cons node nodes ih =>
    rcases ahead with ⟨rfl, ahead⟩
    obtain ⟨fuel, rfl⟩ : ∃ more, fuel = more + 1 := ⟨fuel - 1, by simp at enough; omega⟩
    rw [length_cons, Nat.add_le_add_iff_right] at enough
    cases decided : pred node with
    | true =>
      rcases unlink_spec behind nodup with ⟨linked, same, smaller⟩
      have apart := nodup_middle.mp nodup
      rw [nodup_cons, mem_append, not_or] at apart
      have ahead' := ahead.frame fun other inside => same other
        (fun before => disjoint_of_nodup_append apart.2 before inside)
        (ne_of_mem_of_not_mem inside apart.1.2)
      rcases ih (removed + 1) linked ahead' apart.2 (by simp [smaller, size]) enough with
        ⟨after, ended, represents, frame⟩
      refine ⟨after, ?_, ?_, fun other outside => ?_⟩
      · rw [removeLoop, if_pos decided, ended, countP_cons_of_pos decided]
        congr 2
        omega
      · simpa [decided] using represents
      · simp only [mem_append, mem_cons, not_or] at outside
        rw [frame other (by simp [outside]), same other outside.1 outside.2.1]
    | false =>
      have behind' : Segment list.next list.head (kept ++ [node]) (list.next node) :=
        segment_append.mpr ⟨_, behind, rfl, rfl⟩
      rcases ih removed behind' ahead (by simpa using nodup) (by simpa using size) enough with
        ⟨after, ended, represents, frame⟩
      refine ⟨after, ?_, by simpa [decided] using represents, by simpa using frame⟩
      rw [List.getLast?_concat] at ended
      simpa [removeLoop, decided] using ended

theorem exec_refines {call : Call} (represents : Represents list nodes)
    (allowed : call.Allowed list nodes) : Refines list nodes call := by
  cases call with
  | push obj =>
    have single : (obj :: [] ++ nodes).Nodup := nodup_cons.mpr ⟨allowed, represents.nodup⟩
    refine ⟨_, _, rfl, represents.pushRange single ⟨rfl, rfl⟩, rfl, fun node _ other => ?_⟩
    exact update_of_ne (ne_of_not_mem_cons other) ..
  | write obj value =>
    refine ⟨_, _, rfl, represents.write allowed value, rfl, fun node _ other => ?_⟩
    exact update_of_ne (ne_of_not_mem_cons other) ..
  | pushRange first others =>
    rcases allowed with ⟨nodup, stop, linked⟩
    refine ⟨_, _, rfl, represents.pushRange nodup linked, rfl, fun node _ other => ?_⟩
    exact update_of_ne (ne_of_mem_of_not_mem getLastD_mem_cons other).symm ..
  | pop =>
    refine ⟨_, _, rfl, ?_⟩
    rcases represents.popRange Nat.one_pos with ⟨range, -, rest, frame⟩
    rw [drop_one] at rest
    rw [pop_eq_popRange, range]
    exact ⟨rest, rfl, fun node outside _ => frame node outside⟩
  | popRange n =>
    rcases represents.popRange allowed with ⟨range, taken, rest, frame⟩
    refine ⟨_, _, rfl, rest, ⟨_, rfl, ?_⟩, fun node outside _ => frame node outside⟩
    rw [range]
    exact ⟨taken, rfl, rfl⟩
  | countIf pred =>
    have counted : list.countIf pred = some (nodes.countP pred) := by
      rw [FreeList.countIf, countLoop_eq represents.chain represents.size.ge, Nat.zero_add]
    exact ⟨_, list, congrArg (Option.map _) counted, represents, rfl, fun _ _ _ => rfl⟩
  | removeIf pred =>
    have start : Segment list.next list.head [] list.head := rfl
    rcases removeLoop_spec pred 0 start represents.chain represents.nodup represents.size
      represents.size.ge with ⟨after, ended, kept, frame⟩
    rw [Nat.zero_add] at ended
    refine ⟨_, after, congrArg (Option.map _) ended, kept, rfl, fun node outside _ => ?_⟩
    exact frame node outside

/-- The list and the nodes of which it should consist. -/
def step (state : FreeList × List ℕ) (call : Call) : Option (FreeList × List ℕ) :=
  (state.1.exec call).map fun result => (result.2, call.onNodes state.2)

abbrev Runs (memory : Memory) : List Call → FreeList × List ℕ → Prop :=
  EventSystem.Run step (fun state call => call.Allowed state.1 state.2) ({ next := memory }, [])

/-- After every sequence of allowed calls the nodes linked in memory are the abstract list, and
every further allowed call returns, answers as the list says and changes no other memory. -/
theorem freeList_refines_list {memory : Memory} {calls : List Call}
    {finish : FreeList × List ℕ} (run : Runs memory calls finish) :
    Represents finish.1 finish.2 ∧
      ∀ call, call.Allowed finish.1 finish.2 → Refines finish.1 finish.2 call := by
  have represents : Represents finish.1 finish.2 := by
    induction run with
    | nil => exact ⟨rfl, nodup_nil, rfl⟩
    | snoc _ allowed taken represents =>
      rcases exec_refines represents allowed with ⟨answer, list, executed, refined, -⟩
      rw [step, executed] at taken
      cases taken
      exact refined
  exact ⟨represents, fun _ allowed => exec_refines represents allowed⟩

/-- Three nodes are pushed, two of them as a range. -/
theorem freeList_refines_list_popRange :
    ∃ finish, Runs (fun _ => none) [.write 1 (some 2), .pushRange 1 [2], .push 3] finish ∧
      Represents finish.1 [3, 1, 2] ∧ Refines finish.1 [3, 1, 2] (.popRange 2) := by
  have written : Runs (fun _ => none) [.write 1 (some 2)] _ := .single not_mem_nil rfl
  have linked : Runs (fun _ => none) [.write 1 (some 2), .pushRange 1 [2]] _ :=
    .snoc written ⟨by decide, none, by simp [Segment]⟩ rfl
  have run : Runs (fun _ => none) [.write 1 (some 2), .pushRange 1 [2], .push 3] _ :=
    .snoc linked (by decide : 3 ∉ [1, 2]) rfl
  have result := freeList_refines_list run
  exact ⟨_, run, result.1, result.2 (.popRange 2) Nat.two_pos⟩

end FreeList

end IotProxy.Tcmalloc

import IotProxy.Sipfw.RuleTables

/-!
# The rule tables refine lists

Every command does to the tables what the list operation does to the lists, and returns the same
error (`tables_refine_lists`). They all change one list by one write (`Layout.relink`) and commit it
(`commit_eq`).
-/

namespace IotProxy.Sipfw

open LinkedList Function Multiset Option

variable {kmalloc : Kmalloc} {fails : Bool} {tables : RuleTables}
  {cells : Fin 3 → List (ℕ × Rule)} {loose : Multiset ℕ} {rule : ℕ} {content : Rule}

/-- The tables with their nodes and some loose ones. -/
structure Holds (kmalloc : Kmalloc) (tables : RuleTables) (cells : Fin 3 → List (ℕ × Rule))
    (loose : Multiset ℕ) : Prop where
  layout : Layout tables.heap (fun chain => (tables.lists chain).rule) cells loose
  number : ∀ chain, (tables.lists chain).number = (cells chain).length
  snapshot : ∀ chain, (tables.lists chain).snapshot = snapshotOf (values (cells chain))
  small : ∀ chain, 48 * (cells chain).length ≤ kmalloc.maxSize

def listsOf (cells : Fin 3 → List (ℕ × Rule)) : RuleLists :=
  fun chain => values (cells chain)

theorem length_listsOf (cells : Fin 3 → List (ℕ × Rule)) (chain : Fin 3) :
    (listsOf cells chain).length = (cells chain).length := by simp [listsOf, values]

theorem listsOf_update (chain : Fin 3) (new : List (ℕ × Rule)) :
    listsOf (update cells chain new) = update (listsOf cells) chain (values new) := by
  funext other
  by_cases here : other = chain
  · subst here
    simp [listsOf]
  · simp [listsOf, here]

theorem Holds.represents (holds : Holds kmalloc tables cells loose) :
    tables.Represents (listsOf cells) where
  linked chain := ⟨cells chain, holds.layout.chains chain, rfl⟩
  number chain := by simpa [listsOf, values] using holds.number chain
  snapshot := holds.snapshot

/-- A command has returned what the lists say, and has not touched the tables if that is an
error. -/
def Answers (kmalloc : Kmalloc) (tables : RuleTables) (outcome : Outcome)
    (specified : RuleLists × Option Errno) : Prop :=
  ∃ after cells, outcome = some (after, specified.2) ∧ Holds kmalloc after cells 0 ∧
    listsOf cells = specified.1 ∧ (specified.2 ≠ none → after.lists = tables.lists)

variable {count : ℕ} {heap : Heap Rule} {first : Option ℕ} {new : List (ℕ × Rule)}

section Counts

theorem toUnsigned_natCast (fits : count < 2 ^ 32) : toUnsigned count = count := by
  unfold toUnsigned
  omega

theorem toSigned_eq (fits : count < 2 ^ 31) : toSigned count = count := by
  apply Int.bmod_eq_of_le <;> omega

theorem Holds.length_lt (holds : Holds kmalloc tables cells loose) (chain : Fin 3) :
    (cells chain).length < 2 ^ 27 := by
  have small := holds.small chain
  have bound := kmalloc.maxSize_le
  omega

def prepared (count : ℕ) : Option RuleSnapshot :=
  if count = 0 then none else some { capacity := count, count }

theorem prepareOrGiveUp_eq (count : ℕ) (goOn : Option RuleSnapshot → Outcome) :
    tables.prepareOrGiveUp kmalloc fails rule count goOn =
      if kmalloc.refuses fails count then tables.giveUp rule .enomem
      else goOn (prepared count) := by
  unfold RuleTables.prepareOrGiveUp prepareRuleSnapshotLocked allocRuleSnapshot Kmalloc.refuses
    prepared
  by_cases isZero : count = 0
  · simp [isZero]
  · by_cases refused : fails = true ∨ kmalloc.maxSize < 24 + 48 * count
    · simp [isZero, refused]
    · simp [isZero, refused]

theorem small_of_not_refused (given : ¬kmalloc.refuses fails count) :
    48 * count ≤ kmalloc.maxSize := by
  unfold Kmalloc.refuses at given
  by_contra large
  apply given
  refine ⟨?_, .inr ?_⟩ <;> omega

theorem commit_eq
    (list : SipfwList) (chain : Chain heap first new) (small : 48 * new.length ≤ kmalloc.maxSize) :
    commitRuleUpdateLocked heap { list with rule := first } new.length (prepared new.length) =
      some { rule := first, snapshot := snapshotOf (values new), number := new.length } := by
  have bound := kmalloc.maxSize_le
  have isNumber := @toSigned_eq new.length (by omega)
  have isCount := @toUnsigned_natCast new.length (by omega)
  unfold commitRuleUpdateLocked prepared
  rw [isNumber]
  by_cases isEmpty : new = []
  · simp [isEmpty, publishRuleSnapshotLocked, snapshotOf, values]
  · have isLength : (values new).length = new.length := by simp [values]
    have collected : (values new).take new.length = values new := by
      rw [← isLength, List.take_length]
    have nonempty : values new ≠ [] := by simpa [values] using isEmpty
    simp only [List.length_eq_zero_iff, isEmpty, if_false, publishRuleSnapshotLocked, isCount,
      chain.collect_eq, collected, isLength, le_refl, if_true, snapshotOf, nonempty]

end Counts

variable {chain : Fin 3}

section Tables

theorem commit_changed {firsts : Fin 3 → Option ℕ} (list : SipfwList)
    (layout : Layout heap (update firsts chain first) (update cells chain new) loose)
    (isCount : new.length = count) (given : ¬kmalloc.refuses fails count) :
    commitRuleUpdateLocked heap { list with rule := first } count (prepared count) =
      some { rule := first, snapshot := snapshotOf (values new), number := new.length } := by
  have isChain := layout.chains chain
  rw [update_self, update_self] at isChain
  subst isCount
  exact commit_eq list isChain (small_of_not_refused given)

theorem firsts_withList (heap : Heap Rule) (chain : Fin 3) (list : SipfwList) :
    (fun other => ((tables.withList heap chain list).lists other).rule) =
      update (fun chain => (tables.lists chain).rule) chain list.rule := by
  funext other
  by_cases here : other = chain
  · subst here
    simp [RuleTables.withList]
  · simp [RuleTables.withList, here]

theorem Holds.withList (holds : Holds kmalloc tables cells loose) {loose' : Multiset ℕ}
    (layout : Layout heap (update (fun chain => (tables.lists chain).rule) chain first)
      (update cells chain new) loose')
    (small : 48 * new.length ≤ kmalloc.maxSize) :
    Holds kmalloc (tables.withList heap chain
        { rule := first, snapshot := snapshotOf (values new), number := new.length })
      (update cells chain new) loose' where
  layout := by
    rw [firsts_withList]
    exact layout
  number other := by
    by_cases here : other = chain
    · subst here
      simp [RuleTables.withList]
    · simpa [RuleTables.withList, here] using holds.number other
  snapshot other := by
    by_cases here : other = chain
    · subst here
      simp [RuleTables.withList]
    · simpa [RuleTables.withList, here] using holds.snapshot other
  small other := by
    by_cases here : other = chain
    · subst here
      simpa using small
    · simpa [here] using holds.small other

theorem Holds.withHeap (holds : Holds kmalloc tables cells loose) {loose' : Multiset ℕ}
    (layout : Layout heap (fun chain => (tables.lists chain).rule) cells loose') :
    Holds kmalloc { tables with heap } cells loose' where
  layout := layout
  number := holds.number
  snapshot := holds.snapshot
  small := holds.small

theorem Holds.giveUp (holds : Holds kmalloc tables cells {rule}) (error : Errno) :
    Answers kmalloc tables (tables.giveUp rule error) (listsOf cells, some error) := by
  have layout := holds.layout
  rw [← cons_zero] at layout
  obtain ⟨freed, isLayout⟩ := layout.free
  refine ⟨{ tables with heap := tables.heap.erase rule }, cells, ?_, ?_, rfl, fun _ => rfl⟩
  · rw [RuleTables.giveUp, freed]
    rfl
  · exact holds.withHeap isLayout

theorem onChain_of_some (isNode : tables.heap.node rule = some ⟨content, none⟩)
    (isChain : chainOf content.chain = some chain) (act : ℕ → Rule → Fin 3 → Outcome) :
    tables.onChain (some rule) act = act rule content chain := by
  simp [RuleTables.onChain, isNode, isChain]

theorem Holds.onChain_of_none (holds : Holds kmalloc tables cells {rule})
    (isNode : tables.heap.node rule = some ⟨content, none⟩) (noChain : chainOf content.chain = none)
    (act : ℕ → Rule → Fin 3 → Outcome) :
    Answers kmalloc tables (tables.onChain (some rule) act) (listsOf cells, some .einval) := by
  simp only [RuleTables.onChain, isNode, noChain, bind_eq_bind, bind_some]
  exact holds.giveUp .einval

theorem Holds.refused (holds : Holds kmalloc tables cells {rule})
    {rules : List Rule} (refused : kmalloc.refuses fails rules.length) :
    Answers kmalloc tables (tables.giveUp rule .enomem)
      ((listsOf cells).change kmalloc fails chain rules) := by
  rw [RuleLists.change, if_pos refused]
  exact holds.giveUp .enomem

theorem Holds.changed (holds : Holds kmalloc tables cells loose) {rules : List Rule}
    (layout : Layout heap (update (fun chain => (tables.lists chain).rule) chain first)
      (update cells chain new) 0)
    (isRules : values new = rules) (given : ¬kmalloc.refuses fails rules.length) :
    Answers kmalloc tables
      (some (tables.withList heap chain
        { rule := first, snapshot := snapshotOf (values new), number := new.length }, none))
      ((listsOf cells).change kmalloc fails chain rules) := by
  have isLength : new.length = rules.length := by rw [← isRules, values, List.length_map]
  rw [RuleLists.change, if_neg given]
  refine ⟨_, _, rfl, holds.withList layout ?_, ?_, fun isError => absurd rfl isError⟩
  · rw [isLength]
    exact small_of_not_refused given
  · rw [listsOf_update, isRules]

end Tables

variable {chain : Fin 3} (holds : Holds kmalloc tables cells {rule})
  (isNode : tables.heap.node rule = some ⟨content, none⟩)
  (isChain : chainOf content.chain = some chain)

section Append

theorem linkLast_eq {list : List (ℕ × Rule)} (chain : Chain heap first list) (rule : ℕ) :
    linkLast heap first rule = write heap first (some rule) (linkAt list list.length) := by
  have enough := chain.length_le_top
  cases chain with
  | nil => rfl
  | @cons address value next rest here chain =>
    obtain ⟨final, isLast, isLink⟩ := (Chain.cons here chain).last_eq (Nat.le_succ_of_le enough)
    rw [isLink, linkLast, isLast, write]
    simp only [bind_eq_bind, bind_some]
    cases heap.setNext final (some rule) <;> rfl

include holds isNode isChain in
theorem ruleAppend_answers :
    Answers kmalloc tables (ruleAppend kmalloc fails tables (some rule))
      ((listsOf cells).change kmalloc fails chain (listsOf cells chain ++ [content])) := by
  have isLoose : rule ∈ ({rule} : Multiset ℕ) := mem_singleton_self rule
  have ready := holds.layout.store isLoose ⟨content, none⟩
  have fits := holds.length_lt chain
  have isCount : toUnsigned ((tables.lists chain).number + 1) = (cells chain).length + 1 := by
    rw [holds.number chain, ← Nat.cast_succ]
    exact toUnsigned_natCast (by omega)
  have newLength : (listsOf cells chain ++ [content]).length = (cells chain).length + 1 := by
    simp [listsOf, values]
  rw [ruleAppend, onChain_of_some isNode isChain]
  simp -implicitDefEqProofs only [Heap.setNext_eq isNode, isCount, prepareOrGiveUp_eq,
    bind_eq_bind, bind_some]
  by_cases refused : kmalloc.refuses fails ((cells chain).length + 1)
  · rw [if_pos refused]
    exact (holds.withHeap ready).refused (newLength ▸ refused)
  · rw [if_neg refused]
    have isTail : Chain (tables.heap.store rule ⟨content, none⟩) (some rule) [(rule, content)] :=
      .cons (Heap.node_store_self _) .nil
    have same : (0 : Multiset ℕ) + addresses
        ((cells chain).take (cells chain).length ++ [(rule, content)]) =
          {rule} + addresses (cells chain) := by
      rw [addresses_middle, List.append_nil, List.take_length, zero_add]
      rfl
    obtain ⟨after, first, written, layout⟩ := ready.relink le_rfl isTail same
    have committed := commit_changed (tables.lists chain) layout (by simp) refused
    rw [linkLast_eq (ready.chains chain), written, bind_some, committed, bind_some]
    exact holds.changed layout (by simp [listsOf, values]) (newLength ▸ refused)

end Append

section Insert

theorem insertIdx_eq_take_drop {position : ℕ} {list : List Rule} (inRange : position ≤ list.length) :
    list.insertIdx position content = list.take position ++ content :: list.drop position := by
  induction position generalizing list with
  | zero => simp
  | succ position ih =>
    cases list with
    | nil => simp at inRange
    | cons first rest => simp [ih (show position ≤ rest.length by simpa using inRange)]

include holds isNode isChain in
theorem ruleInsert_answers {number : ℤ} (positive : 0 < number) :
    Answers kmalloc tables (ruleInsert kmalloc fails tables number (some rule))
      ((listsOf cells).change kmalloc fails chain ((listsOf cells chain).insertIdx
        (min number.toNat ((listsOf cells chain).length + 1) - 1) content)) := by
  have isLoose : rule ∈ ({rule} : Multiset ℕ) := mem_singleton_self rule
  have fits := holds.length_lt chain
  have isLength := length_listsOf cells chain
  have isCount : toUnsigned ((tables.lists chain).number + 1) = (cells chain).length + 1 := by
    rw [holds.number chain, ← Nat.cast_succ]
    exact toUnsigned_natCast (by omega)
  -- the position at which the loop stops
  obtain ⟨position, isPosition⟩ : ∃ position, position = min (number - 1).toNat (cells chain).length :=
    ⟨_, rfl⟩
  have inRange : position ≤ (cells chain).length := by omega
  have atPosition : min number.toNat ((listsOf cells chain).length + 1) - 1 = position := by omega
  have newLength : ((listsOf cells chain).insertIdx position content).length =
      (cells chain).length + 1 := by
    rw [List.length_insertIdx_of_le_length (by omega), isLength]
  rw [atPosition]
  rw [ruleInsert, onChain_of_some isNode isChain]
  simp -implicitDefEqProofs only [isCount, prepareOrGiveUp_eq, bind_eq_bind,
    if_neg (not_le.mpr positive)]
  by_cases refused : kmalloc.refuses fails ((cells chain).length + 1)
  · rw [if_pos refused]
    exact holds.refused (newLength ▸ refused)
  · rw [if_neg refused]
    have ready := holds.layout.store isLoose
      ⟨content, ((cells chain)[position]?).map Prod.fst⟩
    have isTail := Chain.cons (Heap.node_store_self _) ((ready.chains chain).drop position)
    have same : (0 : Multiset ℕ) + addresses
        ((cells chain).take position ++ (rule, content) :: (cells chain).drop position) =
          {rule} + addresses (cells chain) := by
      rw [addresses_middle, List.take_append_drop, zero_add]
      rfl
    obtain ⟨after, first, written, layout⟩ := ready.relink inRange isTail same
    have committed := commit_changed (tables.lists chain) layout (by simp; omega) refused
    simp -implicitDefEqProofs only [(holds.layout.chains chain).walk_head, ← isPosition,
      (holds.layout.chains chain).read_linkAt inRange, Heap.setNext_eq isNode, written, committed,
      bind_some]
    apply holds.changed layout
    · rw [insertIdx_eq_take_drop (by omega)]
      simp [listsOf, values]
    · exact newLength ▸ refused

end Insert

section Delete

theorem addresses_eq_cons {list : List (ℕ × Rule)} {position : ℕ} (inRange : position < list.length) :
    (addresses list : Multiset ℕ) = list[position].1 ::ₘ
      (addresses (list.take position ++ list.drop (position + 1)) : Multiset ℕ) := by
  rw [← addresses_middle, ← List.drop_eq_getElem_cons inRange, List.take_append_drop]

include holds in
theorem unlinkRule_answers {position : ℕ} (inRange : position < (cells chain).length) :
    Answers kmalloc tables
      (unlinkRule kmalloc fails tables rule chain (linkAt (cells chain) position))
      ((listsOf cells).change kmalloc fails chain ((listsOf cells chain).eraseIdx position)) := by
  have fits := holds.length_lt chain
  have isLength := length_listsOf cells chain
  have isCount : toUnsigned ((tables.lists chain).number - 1) = (cells chain).length - 1 := by
    have isNat : ((cells chain).length : ℤ) - 1 = ((cells chain).length - 1 : ℕ) := by omega
    rw [holds.number chain, isNat]
    exact toUnsigned_natCast (by omega)
  have newLength : ((listsOf cells chain).eraseIdx position).length = (cells chain).length - 1 := by
    rw [List.length_eraseIdx_of_lt (by omega), isLength]
  have isChain := holds.layout.chains chain
  have found := List.getElem?_eq_getElem inRange
  simp -implicitDefEqProofs only [unlinkRule, isCount, prepareOrGiveUp_eq, bind_eq_bind]
  by_cases refused : kmalloc.refuses fails ((cells chain).length - 1)
  · rw [if_pos refused]
    exact holds.refused (newLength ▸ refused)
  · rw [if_neg refused]
    have same : (cells chain)[position].1 ::ₘ {rule} + (addresses
        ((cells chain).take position ++ (cells chain).drop (position + 1)) : Multiset ℕ) =
          {rule} + addresses (cells chain) := by
      rw [addresses_eq_cons inRange, cons_add, add_cons]
    obtain ⟨linked, first, written, unlinked⟩ :=
      holds.layout.relink inRange.le (isChain.drop (position + 1)) same
    obtain ⟨cleared, isCleared, layout⟩ := unlinked.setNext (mem_cons_self _ _) none
    have committed := commit_changed (tables.lists chain) layout (by simp; omega) refused
    obtain ⟨freedVictim, withoutVictim⟩ := layout.free
    rw [← cons_zero] at withoutVictim
    obtain ⟨freedRule, withoutRule⟩ := withoutVictim.free
    simp -implicitDefEqProofs only [isChain.read_linkAt inRange.le, found, isChain.node_at found, written, isCleared,
      committed, freedVictim, freedRule, map_some, bind_some]
    apply holds.changed withoutRule
    · rw [List.eraseIdx_eq_take_drop_succ]
      simp [listsOf, values]
    · exact newLength ▸ refused

include holds isNode isChain in
theorem ruleDelete_answers_at {number : ℤ} (isPosition : number ≠ -1) :
    Answers kmalloc tables (ruleDelete kmalloc fails tables number (some rule))
      (if number ≤ 0 ∨ (listsOf cells chain).length < number then (listsOf cells, some .enoent)
        else (listsOf cells).change kmalloc fails chain
          ((listsOf cells chain).eraseIdx (number.toNat - 1))) := by
  have isLength := length_listsOf cells chain
  have linked := holds.layout.chains chain
  rw [ruleDelete, onChain_of_some isNode isChain]
  simp only [bind_eq_bind, isPosition, ne_eq, not_false_eq_true, if_true, holds.number chain,
    isLength]
  split_ifs with outOfRange
  · exact holds.giveUp .enoent
  · have inRange : number.toNat - 1 < (cells chain).length := by omega
    have stops : min (number - 1).toNat (cells chain).length = number.toNat - 1 := by omega
    simp -implicitDefEqProofs only [linked.walk_head, stops, linked.read_linkAt inRange.le,
      List.getElem?_eq_getElem inRange, map_some, bind_some]
    exact unlinkRule_answers holds inRange

theorem sameFields_iff {cur rule : Rule} : cur.sameFields rule = true ↔ cur = rule := by
  rw [Rule.sameFields]
  cases cur
  cases rule
  simp only [Bool.and_eq_true, beq_iff_eq, Rule.mk.injEq]
  tauto

include holds isNode isChain in
theorem ruleDelete_answers_fields :
    Answers kmalloc tables (ruleDelete kmalloc fails tables (-1) (some rule))
      (if content ∈ listsOf cells chain then
          (listsOf cells).change kmalloc fails chain ((listsOf cells chain).erase content)
        else (listsOf cells, some .enoent)) := by
  have linked := holds.layout.chains chain
  have enough : (cells chain).length < 0 + (tables.heap.top + 1) := by
    have bound := linked.length_le_top
    omega
  have test : (fun cur : Rule => cur.sameFields content) = (· == content) := by
    funext cur
    rw [Bool.eq_iff_iff, sameFields_iff, beq_iff_eq]
  have sought : seek tables.heap (tables.lists chain).rule (fun cur => cur.sameFields content)
      (tables.heap.top + 1) .head =
        some (((listsOf cells chain).idxOf? content).map fun index => linkAt (cells chain) index) := by
    rw [show Link.head = linkAt (cells chain) 0 from rfl,
      linked.seek_linkAt (Nat.zero_le _) enough, test]
    simp [listsOf, List.idxOf?]
  rw [ruleDelete, onChain_of_some isNode isChain]
  simp only [bind_eq_bind, bind_some, ne_eq, not_true_eq_false, if_false, sought]
  cases isIndex : (listsOf cells chain).idxOf? content with
  | none =>
    rw [if_neg (List.idxOf?_eq_none_iff.mp isIndex)]
    exact holds.giveUp .enoent
  | some index =>
    have isMember : content ∈ listsOf cells chain := by
      by_contra missing
      cases (List.idxOf?_eq_none_iff.mpr missing).symm.trans isIndex
    have inRange : index < (cells chain).length := by
      obtain ⟨inList, -⟩ := List.idxOf?_eq_some_iff.mp isIndex
      simpa [listsOf, values] using inList
    rw [if_pos isMember, List.erase_eq_eraseIdx, isIndex]
    exact unlinkRule_answers holds inRange

end Delete

section Replace

include holds isNode isChain in
theorem ruleReplace_answers {number : ℤ} (positive : 0 < number)
    (inList : number ≤ (listsOf cells chain).length) :
    Answers kmalloc tables (ruleReplace kmalloc fails tables number (some rule))
      ((listsOf cells).change kmalloc fails chain
        ((listsOf cells chain).set (number.toNat - 1) content)) := by
  have isLoose : rule ∈ ({rule} : Multiset ℕ) := mem_singleton_self rule
  have fits := holds.length_lt chain
  have isLength := length_listsOf cells chain
  have isCount : toUnsigned (tables.lists chain).number = (cells chain).length := by
    rw [holds.number chain]
    exact toUnsigned_natCast (by omega)
  obtain ⟨position, isPosition⟩ : ∃ position, position = number.toNat - 1 := ⟨_, rfl⟩
  have inRange : position < (cells chain).length := by omega
  have newLength : ((listsOf cells chain).set position content).length = (cells chain).length := by
    rw [List.length_set, isLength]
  have linked := holds.layout.chains chain
  have found := List.getElem?_eq_getElem inRange
  have stops : min (number - 1).toNat (cells chain).length = position := by omega
  have notBeyond : ¬(tables.lists chain).number < number := by
    rw [holds.number chain]
    omega
  rw [← isPosition, ruleReplace, onChain_of_some isNode isChain]
  simp -implicitDefEqProofs only [bind_eq_bind, if_neg (not_le.mpr positive),
    if_neg notBeyond, linked.walk_head, stops, linked.read_linkAt inRange.le, found,
    map_some, bind_some, isCount, prepareOrGiveUp_eq]
  by_cases refused : kmalloc.refuses fails (cells chain).length
  · rw [if_pos refused]
    exact holds.refused (newLength ▸ refused)
  · rw [if_neg refused]
    have ready := holds.layout.store isLoose
      ⟨content, ((cells chain)[position + 1]?).map Prod.fst⟩
    have isTail := Chain.cons (Heap.node_store_self _) ((ready.chains chain).drop (position + 1))
    have same : (cells chain)[position].1 ::ₘ 0 + (addresses ((cells chain).take position ++
        (rule, content) :: (cells chain).drop (position + 1)) : Multiset ℕ) =
          {rule} + addresses (cells chain) := by
      rw [addresses_middle, addresses_eq_cons inRange, cons_add, add_cons, zero_add, cons_swap]
      rfl
    obtain ⟨linkedHeap, first, written, relinked⟩ := ready.relink inRange.le isTail same
    obtain ⟨cleared, isCleared, layout⟩ := relinked.setNext (mem_cons_self _ _) none
    have committed := commit_changed (tables.lists chain) layout (by simp; omega) refused
    obtain ⟨freedOld, withoutOld⟩ := layout.free
    simp -implicitDefEqProofs only [linked.node_at found, Heap.setNext_eq isNode, written, isCleared, committed,
      freedOld, bind_some]
    apply holds.changed withoutOld
    · rw [List.set_eq_take_append_cons_drop, if_pos (by omega)]
      simp [listsOf, values]
    · exact newLength ▸ refused

end Replace

section Flush

theorem flushChain_layout (chain : Fin 3)
    (layout : Layout tables.heap (fun chain => (tables.lists chain).rule) cells loose) :
    ∃ heap, flushChain tables chain = some (tables.withList heap chain {}) ∧
      Layout heap (update (fun chain => (tables.lists chain).rule) chain none)
        (update cells chain []) loose := by
  have linked := layout.chains chain
  have unlinked : Layout tables.heap
      (update (fun chain => (tables.lists chain).rule) chain none)
      (update cells chain []) (addresses (cells chain) + loose) :=
    layout.rechain .nil (by simp [addresses, add_comm])
  obtain ⟨heap, freed, isLayout⟩ :=
    unlinked.freeAll linked (Nat.le_succ_of_le linked.length_le_top)
  refine ⟨heap, ?_, isLayout⟩
  rw [flushChain]
  simp only [bind_eq_bind]
  rw [show commitRuleUpdateLocked tables.heap { tables.lists chain with rule := none } 0 none =
    some {} from rfl, bind_some, freed, bind_some]

theorem flushChain_eq (holds : Holds kmalloc tables cells loose) (chain : Fin 3) :
    ∃ after, flushChain tables chain = some after ∧
      Holds kmalloc after (update cells chain []) loose := by
  obtain ⟨heap, flushed, layout⟩ := flushChain_layout chain holds.layout
  exact ⟨_, flushed, holds.withList layout (Nat.zero_le _)⟩

include holds isNode in
theorem ruleFlush_answers_all (all : content.chain = 3) :
    Answers kmalloc tables (ruleFlush tables (some rule)) (fun _ => [], none) := by
  obtain ⟨first, isFirst, holdsFirst⟩ := flushChain_eq holds 0
  obtain ⟨second, isSecond, holdsSecond⟩ := flushChain_eq holdsFirst 1
  obtain ⟨third, isThird, holdsThird⟩ := flushChain_eq holdsSecond 2
  have layout := holdsThird.layout
  rw [← cons_zero] at layout
  obtain ⟨freed, flushed⟩ := layout.free
  refine ⟨_, _, ?_, holdsThird.withHeap flushed, ?_, fun isError => absurd rfl isError⟩
  · simp [ruleFlush, isNode, all, isFirst, isSecond, isThird, freed]
  · funext chain
    fin_cases chain <;> rfl

include holds isNode isChain in
theorem ruleFlush_answers (notAll : content.chain ≠ 3) :
    Answers kmalloc tables (ruleFlush tables (some rule))
      (update (listsOf cells) chain [], none) := by
  obtain ⟨after, isAfter, holdsAfter⟩ := flushChain_eq holds chain
  have layout := holdsAfter.layout
  rw [← cons_zero] at layout
  obtain ⟨freed, flushed⟩ := layout.free
  refine ⟨_, _, ?_, holdsAfter.withHeap flushed, ?_, fun isError => absurd rfl isError⟩
  · simp [ruleFlush, isNode, notAll, onChain_of_some isNode isChain, isAfter, freed]
  · exact listsOf_update chain []

end Flush

section Commands

theorem Holds.alloc (holds : Holds kmalloc tables cells 0) (wish : ℕ) (content : Rule) :
    Holds kmalloc { tables with heap := (tables.heap.alloc wish content).1 } cells
      {(tables.heap.alloc wish content).2} :=
  holds.withHeap (holds.layout.alloc wish content)

theorem Holds.execute (holds : Holds kmalloc tables cells 0) (command : Command) :
    Answers kmalloc tables (command.execute kmalloc tables)
      (command.specify kmalloc (listsOf cells)) := by
  have ready := holds.alloc command.wish command.rule
  have isNode : (tables.heap.alloc command.wish command.rule).1.node
      (tables.heap.alloc command.wish command.rule).2 = some ⟨command.rule, none⟩ :=
    Heap.node_store_self _
  obtain ⟨kind, content, wish, fails⟩ := command
  simp only [Command.execute, Command.specify] at ready isNode ⊢
  generalize (tables.heap.alloc wish content).2 = rule at ready isNode ⊢
  cases isChain : chainOf content.chain with
  | none =>
    cases kind with
    | append | insert | replace | delete => exact ready.onChain_of_none isNode isChain _
    | flush =>
      simp only [true_and]
      split_ifs with all
      · exact ruleFlush_answers_all ready isNode all
      · simp only [ruleFlush, isNode, bind_eq_bind, bind_some, all, if_false]
        exact ready.onChain_of_none isNode isChain _
  | some chain =>
    cases kind with
    | append =>
      simp only [reduceCtorEq, false_and, if_false]
      exact ruleAppend_answers ready isNode isChain
    | insert number =>
      simp only [reduceCtorEq, false_and, if_false]
      split_ifs with nonpositive
      · rw [ruleInsert, onChain_of_some isNode isChain, if_pos nonpositive]
        exact ready.giveUp .einval
      · exact ruleInsert_answers ready isNode isChain (not_le.mp nonpositive)
    | replace number =>
      simp only [reduceCtorEq, false_and, if_false]
      split_ifs with nonpositive beyond
      · rw [ruleReplace, onChain_of_some isNode isChain, if_pos nonpositive]
        exact ready.giveUp .einval
      · have isBeyond : (tables.lists chain).number < number := by
          rw [holds.number chain]
          simpa [listsOf, values] using beyond
        rw [ruleReplace, onChain_of_some isNode isChain, if_neg nonpositive, if_pos isBeyond]
        exact ready.giveUp .enoent
      · exact ruleReplace_answers ready isNode isChain (not_le.mp nonpositive)
          (not_lt.mp beyond)
    | delete number =>
      simp only [reduceCtorEq, false_and, if_false]
      by_cases byFields : number = -1
      · subst byFields
        exact ruleDelete_answers_fields ready isNode isChain
      · simp only [ne_eq, byFields, not_false_eq_true, if_true]
        exact ruleDelete_answers_at ready isNode isChain byFields
    | flush =>
      simp only [true_and]
      split_ifs with all
      · exact ruleFlush_answers_all ready isNode all
      · exact ruleFlush_answers ready isNode isChain all

theorem change_eq_of_error {lists : RuleLists} {new : List Rule}
    (isError : (lists.change kmalloc fails chain new).2 ≠ none) :
    (lists.change kmalloc fails chain new).1 = lists := by
  unfold RuleLists.change at isError ⊢
  split_ifs at isError ⊢
  · rfl
  · exact absurd rfl isError

theorem specify_eq_of_error {lists : RuleLists} {command : Command} :
    (command.specify kmalloc lists).2 ≠ none → (command.specify kmalloc lists).1 = lists := by
  unfold Command.specify
  split_ifs
  · intro isError
    exact absurd rfl isError
  · cases chainOf command.rule.chain with
    | none => exact fun _ => rfl
    | some chain =>
      cases command.kind with
      | append => exact change_eq_of_error
      | insert number =>
        simp only
        split_ifs
        · exact fun _ => rfl
        · exact change_eq_of_error
      | replace number =>
        simp only
        split_ifs
        · exact fun _ => rfl
        · exact fun _ => rfl
        · exact change_eq_of_error
      | delete number =>
        simp only
        split_ifs
        · exact fun _ => rfl
        · exact change_eq_of_error
        · exact change_eq_of_error
        · exact fun _ => rfl
      | flush =>
        intro isError
        exact absurd rfl isError

theorem Holds.executeAll (holds : Holds kmalloc tables cells 0) (commands : List Command) :
    ∃ after final, executeAll kmalloc tables commands =
        some (after, (specifyAll kmalloc (listsOf cells) commands).2) ∧
      Holds kmalloc after final 0 ∧
      listsOf final = (specifyAll kmalloc (listsOf cells) commands).1 := by
  induction commands generalizing tables cells with
  | nil => exact ⟨tables, cells, rfl, holds, rfl⟩
  | cons command commands ih =>
    obtain ⟨after, next, executed, holdsNext, isNext, -⟩ := holds.execute command
    obtain ⟨final, finalCells, executedAll, holdsFinal, isFinal⟩ := ih holdsNext
    rw [isNext] at executedAll isFinal
    refine ⟨final, finalCells, ?_, holdsFinal, isFinal⟩
    rw [Sipfw.executeAll, executed]
    simp only [bind_eq_bind, bind_some]
    rw [executedAll]
    rfl

theorem holds_initial : Holds kmalloc {} (fun _ => []) 0 where
  layout := by
    refine ⟨fun _ => .nil, ?_, ?_⟩
    · simp [held, addresses]
    · simp [held, addresses, Heap.empty]
  number _ := rfl
  snapshot _ := rfl
  small _ := Nat.zero_le _

/-- After any commands, the tables are what the list operations say, and so are the results. A
command that returns an error leaves the lists, their numbers and their snapshots as they are. -/
theorem tables_refine_lists (kmalloc : Kmalloc) (commands : List Command) :
    ∃ tables, executeAll kmalloc {} commands =
        some (tables, (specifyAll kmalloc (fun _ => []) commands).2) ∧
      tables.Represents (specifyAll kmalloc (fun _ => []) commands).1 ∧
      ∀ command : Command, ∃ after error,
        command.execute kmalloc tables = some (after, error) ∧
        (error ≠ none → after.lists = tables.lists ∧
          after.Represents (specifyAll kmalloc (fun _ => []) commands).1) := by
  obtain ⟨tables, cells, executed, holds, isLists⟩ :=
    (@holds_initial kmalloc).executeAll commands
  have represents := holds.represents
  rw [isLists] at represents
  refine ⟨tables, executed, represents, ?_⟩
  intro command
  obtain ⟨after, next, isAfter, holdsNext, isNext, unchanged⟩ := holds.execute command
  refine ⟨after, _, isAfter, ?_⟩
  intro isError
  have represented := holdsNext.represents
  rw [isNext, specify_eq_of_error isError, isLists] at represented
  exact ⟨unchanged isError, represented⟩

end Commands

end IotProxy.Sipfw

import IotProxy.Lib.Encoding
import IotProxy.Sipfw.RuleRefinement

/-!
# The rule file

`SIPFW_SaveRuleFile` truncates the rule file and writes the snapshots of the chains to it, record by
record. `SIPFW_LoadRuleFile` appends the records to the lists of their chains and publishes the
lists. A record that is cut off makes it give up and empty the tables.

A file is its whole records, and whether a part of one follows. A crash leaves what a write leaves
that fails at the same place.
-/

namespace IotProxy.Sipfw

open LinkedList Option Function

/-- `struct sipfw_rule_record` -/
structure RuleRecord where
  chain : ℤ
  source : UInt32
  dest : UInt32
  sport : UInt16
  dport : UInt16
  protocol : UInt8
  action : ℤ
  ifname : Vector UInt8 8
  addtion : Vector UInt8 4
  deriving DecidableEq

structure RuleFile where
  records : List RuleRecord := []
  torn : Bool := false
  deriving DecidableEq

def recordFromRule (rule : Rule) : RuleRecord where
  chain := rule.chain
  source := rule.source
  dest := rule.dest
  sport := rule.sport
  dport := rule.dport
  protocol := rule.protocol
  action := rule.action
  ifname := rule.ifname
  addtion := rule.addtion

def ruleFromRecord (record : RuleRecord) : Rule where
  chain := record.chain
  source := record.source
  dest := record.dest
  sport := record.sport
  dport := record.dport
  protocol := record.protocol
  action := record.action
  ifname := record.ifname
  addtion := record.addtion

section Save

inductive Written where
  | whole
  | part
  | nothing
  deriving DecidableEq

inductive SaveError where
  | enoent
  | enomem
  | eio
  /-- The error of a write. -/
  | write
  deriving DecidableEq

structure SaveAnswers where
  opens : Bool
  kmemdupFails : Fin 3 → Bool
  writes : ℕ → Written

variable (answers : SaveAnswers)

def writeRules : List Rule → RuleFile → RuleFile × Option SaveError
  | [], file => (file, none)
  | rule :: rules, file =>
    match answers.writes file.records.length with
    | .whole => writeRules rules { file with records := file.records ++ [recordFromRule rule] }
    | .part => ({ file with torn := true }, some .eio)
    | .nothing => (file, some .write)

/-- The loop over the chains, which are given by the rules of their snapshots. -/
def saveChains (rules : RuleLists) : List (Fin 3) → RuleFile → RuleFile × Option SaveError
  | [], file => (file, none)
  | chain :: chains, file =>
    if rules chain = [] then saveChains rules chains file
    else if answers.kmemdupFails chain then (file, some .enomem)
    else
      match writeRules answers (rules chain) file with
      | (file, none) => saveChains rules chains file
      | (file, some error) => (file, some error)

/-- `SIPFW_SaveRuleFile`: the file is truncated and then written chain by chain. -/
def saveRuleFile (path : Bytes) (rules : RuleLists) (file : Option RuleFile) :
    Option RuleFile × Option SaveError :=
  if path = [] then (file, none)
  else if !answers.opens then (file, some .enoent)
  else
    let saved := saveChains answers rules allChains {}
    (some saved.1, saved.2)

end Save

def RuleTables.snapshotRules (tables : RuleTables) : RuleLists :=
  fun chain => ((tables.lists chain).snapshot.map fun snapshot =>
    snapshot.rules.take snapshot.count).getD []

section Load

structure LoadAnswers where
  wish : ℕ → ℕ
  kzallocFails : ℕ → Bool
  snapshotFails : Fin 3 → Bool

structure LoadAnswers.Good (answers : LoadAnswers) : Prop where
  kzalloc : ∀ index, answers.kzallocFails index = false
  snapshot : ∀ chain, answers.snapshotFails chain = false

def RuleRecord.valid (record : RuleRecord) : Bool :=
  0 ≤ record.chain && record.chain < 3 && 0 ≤ record.action && record.action < 6

/-- Hang a rule behind the last one of its chain. -/
def RuleTables.link (tables : RuleTables) (wish : ℕ) (rule : Rule) : Option RuleTables := do
  let chain ← chainOf rule.chain
  let allocated := tables.heap.alloc wish rule
  let list := tables.lists chain
  let linked ← linkLast allocated.1 list.rule allocated.2
  some (tables.withList linked.1 chain
    { list with rule := linked.2, number := list.number + 1 })

variable (kmalloc : Kmalloc) (answers : LoadAnswers)

def loadRecords (torn : Bool) : ℕ → List RuleRecord → RuleTables → Outcome
  | _, [], tables => some (tables, if torn then some .einval else none)
  | index, record :: records, tables =>
    if !record.valid then some (tables, some .einval)
    else if answers.kzallocFails index then some (tables, some .enomem)
    else do
      let tables ← tables.link (answers.wish index) (ruleFromRecord record)
      loadRecords torn (index + 1) records tables

def publishChains : List (Fin 3) → RuleTables → Outcome
  | [], tables => some (tables, none)
  | chain :: chains, tables =>
    let list := tables.lists chain
    if list.number = 0 then publishChains chains tables
    else
      match allocRuleSnapshot kmalloc (answers.snapshotFails chain) (toUnsigned list.number) with
      | none => some (tables, some .enomem)
      | some snapshot => do
          let list ← publishRuleSnapshotLocked tables.heap list (some snapshot)
          publishChains chains (tables.withList tables.heap chain list)

def listDestroy (tables : RuleTables) : Option RuleTables :=
  allChains.foldlM flushChain tables

/-- `SIPFW_LoadRuleFile`: the rules are added one by one and published at the end. An error empties the
chains. -/
def loadRuleFile (path : Bytes) (file : Option RuleFile) (tables : RuleTables) : Outcome :=
  if path = [] then some (tables, none)
  else
    match file with
    | none => some (tables, none)
    | some file => do
        let (tables, error) ← loadRecords answers file.torn 0 file.records tables
        let (tables, error) ←
          if error = none then publishChains kmalloc answers allChains tables
          else some (tables, error)
        if error = none then some (tables, none)
        else
          let tables ← listDestroy tables
          some (tables, error)

end Load

section Saving

variable {answers : SaveAnswers} {rules : RuleLists} {file : RuleFile}

def recordsOf (rules : RuleLists) (chains : List (Fin 3)) : List RuleRecord :=
  chains.flatMap fun chain => (rules chain).map recordFromRule

/-- A save has written all of the records, or some of them. -/
def Wrote (before : RuleFile) (records : List RuleRecord)
    (result : RuleFile × Option SaveError) : Prop :=
  (∃ written, written <+: records ∧ result.1.records = before.records ++ written) ∧
    (result.2 = none → result.1 = { before with records := before.records ++ records })

theorem writeRules_wrote (list : List Rule) (file : RuleFile) :
    Wrote file (list.map recordFromRule) (writeRules answers list file) := by
  induction list generalizing file with
  | nil => exact ⟨⟨[], List.prefix_rfl, by simp [writeRules]⟩, fun _ => by simp [writeRules]⟩
  | cons rule list ih =>
    rw [writeRules]
    cases answers.writes file.records.length with
    | whole =>
      obtain ⟨⟨written, isPrefix, records⟩, isWhole⟩ :=
        ih { file with records := file.records ++ [recordFromRule rule] }
      refine ⟨⟨recordFromRule rule :: written, ?_, ?_⟩, ?_⟩
      · exact List.cons_prefix_cons.mpr ⟨rfl, isPrefix⟩
      · simp [records]
      · intro saved
        simp [isWhole saved]
    | part => exact ⟨⟨[], List.nil_prefix, by simp⟩, fun saved => by cases saved⟩
    | nothing => exact ⟨⟨[], List.nil_prefix, by simp⟩, fun saved => by cases saved⟩

theorem saveChains_wrote (chains : List (Fin 3)) (file : RuleFile) :
    Wrote file (recordsOf rules chains) (saveChains answers rules chains file) := by
  induction chains generalizing file with
  | nil =>
    exact ⟨⟨[], List.prefix_rfl, by simp [saveChains]⟩, fun _ => by simp [saveChains, recordsOf]⟩
  | cons chain chains ih =>
    have isCons : recordsOf rules (chain :: chains) =
        (rules chain).map recordFromRule ++ recordsOf rules chains := List.flatMap_cons
    rw [saveChains, isCons]
    split_ifs with isEmpty refused
    · rw [isEmpty]
      exact ih file
    · exact ⟨⟨[], List.nil_prefix, by simp⟩, fun saved => by cases saved⟩
    · obtain ⟨⟨written, isPrefix, records⟩, isWhole⟩ :=
        @writeRules_wrote answers (rules chain) file
      cases result : writeRules answers (rules chain) file with
      | mk after error =>
        rw [result] at records isWhole
        cases error with
        | some error =>
          exact ⟨⟨written, isPrefix.trans (List.prefix_append _ _), records⟩,
            fun saved => by cases saved⟩
        | none =>
          obtain rfl := isWhole rfl
          obtain ⟨⟨more, morePrefix, moreRecords⟩, moreWhole⟩ :=
            ih { file with records := file.records ++ (rules chain).map recordFromRule }
          refine ⟨⟨_ ++ more, (List.prefix_append_right_inj _).mpr morePrefix, ?_⟩, ?_⟩
          · rw [moreRecords, List.append_assoc]
          · intro saved
            rw [moreWhole saved, List.append_assoc]

end Saving

variable {count : ℕ} {file : RuleFile}

section Loading

variable {kmalloc : Kmalloc} {answers : LoadAnswers} {tables : RuleTables}
  {cells : Fin 3 → List (ℕ × Rule)}

/-- The tables while they are loaded: some chains have their snapshot. -/
structure Loading (tables : RuleTables) (cells : Fin 3 → List (ℕ × Rule))
    (published : Fin 3 → Bool) : Prop where
  layout : Layout tables.heap (fun chain => (tables.lists chain).rule) cells 0
  number : ∀ chain, (tables.lists chain).number = (cells chain).length
  snapshot : ∀ chain, (tables.lists chain).snapshot =
    if published chain then snapshotOf (values (cells chain)) else none

/-- The rules of the records, for every chain. -/
def recordLists (records : List RuleRecord) : RuleLists :=
  fun chain => (records.map ruleFromRecord).filter fun rule => chainOf rule.chain = some chain

theorem Loading.link (loading : Loading tables cells fun _ => false) (wish : ℕ) {rule : Rule}
    {chain : Fin 3} (isChain : chainOf rule.chain = some chain) :
    ∃ after new, tables.link wish rule = some after ∧
      Loading after (update cells chain new) (fun _ => false) ∧
      values new = values (cells chain) ++ [rule] := by
  have ready := loading.layout.alloc wish rule
  have isTail : Chain (tables.heap.alloc wish rule).1 (some (tables.heap.fresh wish))
      [(tables.heap.fresh wish, rule)] :=
    .cons (Heap.node_store_self _) .nil
  have same : (0 : Multiset ℕ) + addresses ((cells chain).take (cells chain).length ++
      [(tables.heap.fresh wish, rule)]) =
        tables.heap.fresh wish ::ₘ 0 + addresses (cells chain) := by
    rw [addresses_middle, List.append_nil, List.take_length, zero_add]
    rfl
  obtain ⟨heap, first, written, layout⟩ := ready.relink le_rfl isTail same
  refine ⟨tables.withList heap chain { tables.lists chain with
    rule := first, number := (tables.lists chain).number + 1 },
    (cells chain).take (cells chain).length ++ [(tables.heap.fresh wish, rule)],
    ?_, ⟨?_, ?_, ?_⟩, ?_⟩
  · simp only [RuleTables.link, isChain, bind_eq_bind, bind_some]
    rw [show (tables.heap.alloc wish rule).2 = tables.heap.fresh wish from rfl,
      linkLast_eq (ready.chains chain), written, bind_some]
  · rw [firsts_withList]
    exact layout
  · intro other
    by_cases here : other = chain
    · subst here
      simp [RuleTables.withList, loading.number]
    · simpa [RuleTables.withList, here] using loading.number other
  · intro other
    have unpublished := loading.snapshot other
    by_cases here : other = chain
    · subst here
      simpa [RuleTables.withList] using unpublished
    · simpa [RuleTables.withList, here] using unpublished
  · simp [values]

theorem valid_chain {record : RuleRecord} (valid : record.valid = true) :
    ∃ chain, chainOf (ruleFromRecord record).chain = some chain := by
  simp only [RuleRecord.valid, Bool.and_eq_true, decide_eq_true_eq] at valid
  exact ⟨_, if_pos ⟨valid.1.1.1, valid.1.1.2⟩⟩

theorem Loading.loadRecords (loading : Loading tables cells fun _ => false) (good : answers.Good)
    {records : List RuleRecord} (valid : ∀ record ∈ records, record.valid = true) (torn : Bool)
    (index : ℕ) :
    ∃ after final, loadRecords answers torn index records tables =
        some (after, if torn then some .einval else none) ∧
      Loading after final (fun _ => false) ∧
      ∀ chain, values (final chain) = values (cells chain) ++ recordLists records chain := by
  induction records generalizing tables cells index with
  | nil => exact ⟨tables, cells, rfl, loading, by simp [recordLists]⟩
  | cons record records ih =>
    obtain ⟨chain, isChain⟩ := valid_chain (valid record List.mem_cons_self)
    obtain ⟨linked, new, isLinked, loadingLinked, isNew⟩ :=
      loading.link (answers.wish index) isChain
    obtain ⟨after, final, isAfter, loadingAfter, isFinal⟩ :=
      ih loadingLinked (fun record mem => valid record (List.mem_cons_of_mem _ mem)) (index + 1)
    refine ⟨after, final, ?_, loadingAfter, ?_⟩
    · rw [Sipfw.loadRecords, valid record List.mem_cons_self, good.kzalloc, isLinked]
      exact isAfter
    · intro other
      rw [isFinal other]
      by_cases here : other = chain
      · subst here
        simp [isNew, recordLists, isChain]
      · have elsewhere : some chain ≠ some other := fun same => here (Option.some.inj same).symm
        simp [here, recordLists, isChain, elsewhere]

theorem not_refuses_of_le {bound : ℕ} (le : count ≤ bound)
    (given : ¬kmalloc.refuses false bound) : ¬kmalloc.refuses false count := by
  unfold Kmalloc.refuses at given ⊢
  simp only [Bool.false_eq_true, false_or, not_and, not_lt] at given ⊢
  omega

theorem Loading.publish {published : Fin 3 → Bool} (loading : Loading tables cells published)
    (fits : ∀ chain, ¬kmalloc.refuses false (cells chain).length) (good : answers.Good)
    (chain : Fin 3) (chains : List (Fin 3)) :
    ∃ after, publishChains kmalloc answers (chain :: chains) tables =
        publishChains kmalloc answers chains after ∧
      Loading after cells (update published chain true) := by
  have isNumber := loading.number chain
  have small := small_of_not_refused (fits chain)
  have bound := kmalloc.maxSize_le
  have isCount : toUnsigned (tables.lists chain).number = (cells chain).length := by
    rw [isNumber]
    exact toUnsigned_natCast (by omega)
  by_cases isEmpty : cells chain = []
  · refine ⟨tables, ?_, loading.layout, loading.number, ?_⟩
    · rw [publishChains, if_pos (by simp [isNumber, isEmpty])]
    · intro other
      by_cases here : other = chain
      · subst here
        have unpublished := loading.snapshot other
        simpa [isEmpty, values, snapshotOf] using unpublished
      · simpa [here] using loading.snapshot other
  · have isLength : (values (cells chain)).length = (cells chain).length := by simp [values]
    have nonempty : values (cells chain) ≠ [] := by simpa [values] using isEmpty
    have notZero : (cells chain).length ≠ 0 := by simpa using isEmpty
    have given := fits chain
    simp only [Kmalloc.refuses, Bool.false_eq_true, false_or, not_and, not_lt] at given
    have allocated : allocRuleSnapshot kmalloc (answers.snapshotFails chain)
        (cells chain).length =
          some { capacity := (cells chain).length, count := (cells chain).length } := by
      have enough := not_lt.mpr (given notZero)
      simp [allocRuleSnapshot, notZero, good.snapshot, enough]
    have collected := (loading.layout.chains chain).collect_eq (cells chain).length
    rw [← isLength, List.take_length, isLength] at collected
    have isPublished : publishRuleSnapshotLocked tables.heap (tables.lists chain)
        (some { capacity := (cells chain).length, count := (cells chain).length }) =
          some { tables.lists chain with snapshot := snapshotOf (values (cells chain)) } := by
      simp [publishRuleSnapshotLocked, isCount, collected, isLength, snapshotOf, nonempty]
    refine ⟨tables.withList tables.heap chain
      { tables.lists chain with snapshot := snapshotOf (values (cells chain)) }, ?_, ?_, ?_, ?_⟩
    · rw [publishChains, if_neg (by simpa [isNumber] using isEmpty), isCount, allocated]
      simp [isPublished]
    · rw [firsts_withList, update_eq_self]
      exact loading.layout
    · intro other
      by_cases here : other = chain
      · subst here
        simpa [RuleTables.withList] using isNumber
      · simpa [RuleTables.withList, here] using loading.number other
    · intro other
      by_cases here : other = chain
      · subst here
        simp [RuleTables.withList]
      · simpa [RuleTables.withList, here] using loading.snapshot other

theorem Loading.represents (loading : Loading tables cells fun _ => true) :
    tables.Represents (listsOf cells) where
  linked chain := ⟨cells chain, loading.layout.chains chain, rfl⟩
  number chain := by simpa [listsOf, values] using loading.number chain
  snapshot := loading.snapshot

theorem listDestroy_represents
    (layout : Layout tables.heap (fun chain => (tables.lists chain).rule) cells 0) :
    ∃ after, listDestroy tables = some after ∧ after.Represents fun _ => [] := by
  obtain ⟨first, isFirst, layoutFirst⟩ := flushChain_layout 0 layout
  rw [show none = SipfwList.rule {} from rfl, ← firsts_withList first] at layoutFirst
  obtain ⟨second, isSecond, layoutSecond⟩ :=
    @flushChain_layout (tables.withList first 0 {}) _ _ 1 layoutFirst
  rw [show none = SipfwList.rule {} from rfl, ← firsts_withList second] at layoutSecond
  obtain ⟨third, isThird, -⟩ :=
    @flushChain_layout ((tables.withList first 0 {}).withList second 1 {}) _ _ 2 layoutSecond
  refine ⟨((tables.withList first 0 {}).withList second 1 {}).withList third 2 {}, ?_, ?_, ?_, ?_⟩
  · simp only [listDestroy, allChains, List.foldlM_cons, List.foldlM_nil, bind_eq_bind,
      isFirst, isSecond, isThird, bind_some]
    rfl
  all_goals
    intro chain
    fin_cases chain
  · exact ⟨[], .nil, rfl⟩
  · exact ⟨[], .nil, rfl⟩
  · exact ⟨[], .nil, rfl⟩
  all_goals rfl

theorem load_records {path : Bytes} (configured : path ≠ []) (good : answers.Good)
    (valid : ∀ record ∈ file.records, record.valid = true)
    (fits : ∀ chain, ¬kmalloc.refuses false (recordLists file.records chain).length) :
    ∃ loaded error, loadRuleFile kmalloc answers path (some file) {} = some (loaded, error) ∧
      (file.torn = true → loaded.Represents fun _ => []) ∧
      (file.torn = false → error = none ∧ loaded.Represents (recordLists file.records)) := by
  have initial : Loading {} (fun _ => []) fun _ => false :=
    ⟨(@holds_initial kmalloc).layout, fun _ => rfl, fun _ => rfl⟩
  obtain ⟨after, cells, isAfter, loading, isCells⟩ := initial.loadRecords good valid file.torn 0
  have lists : listsOf cells = recordLists file.records := by
    funext chain
    simpa [values, listsOf] using isCells chain
  cases torn : file.torn with
  | true =>
    obtain ⟨final, isFinal, represents⟩ := listDestroy_represents loading.layout
    refine ⟨final, some .einval, ?_, fun _ => represents, fun whole => by cases whole⟩
    rw [torn] at isAfter
    rw [loadRuleFile, if_neg configured]
    simp [isAfter, torn, isFinal]
  | false =>
    have small : ∀ chain, ¬kmalloc.refuses false (cells chain).length := by
      intro chain
      have isLength : (cells chain).length = (recordLists file.records chain).length := by
        rw [← lists]
        simp [listsOf, values]
      rw [isLength]
      exact fits chain
    obtain ⟨first, isFirst, loadingFirst⟩ := loading.publish small good 0 [1, 2]
    obtain ⟨second, isSecond, loadingSecond⟩ := loadingFirst.publish small good 1 [2]
    obtain ⟨third, isThird, loadingThird⟩ := loadingSecond.publish small good 2 []
    have isPublished : publishChains kmalloc answers allChains after = some (third, none) := by
      rw [allChains, isFirst, isSecond, isThird, publishChains]
    have all : update (update (update (fun _ => false) (0 : Fin 3) true)
        1 true) 2 true = fun _ => true := by
      decide
    rw [all] at loadingThird
    have represents := loadingThird.represents
    rw [lists] at represents
    refine ⟨third, none, ?_, fun isTorn => absurd isTorn Bool.false_ne_true,
      fun _ => ⟨rfl, represents⟩⟩
    rw [torn] at isAfter
    rw [loadRuleFile, if_neg configured]
    simp [isAfter, torn, isPublished]

end Loading

section RoundTrip

variable {kmalloc : Kmalloc} {tables : RuleTables} {lists others : RuleLists}

theorem snapshotRules_of_represents (represents : tables.Represents lists) :
    tables.snapshotRules = lists := by
  funext chain
  rw [RuleTables.snapshotRules, represents.snapshot chain, snapshotOf]
  split_ifs with isEmpty
  · exact isEmpty.symm
  · simp

theorem RuleTables.Represents.unique (first : tables.Represents lists)
    (second : tables.Represents others) : lists = others := by
  rw [← snapshotRules_of_represents first, snapshotRules_of_represents second]

/-- The rules belong to the chain, their actions exist, and there is memory for the snapshot. -/
structure LoadableChain (kmalloc : Kmalloc) (chain : Fin 3) (rules : List Rule) : Prop where
  placed : ∀ rule ∈ rules, chainOf rule.chain = some chain
  actions : ∀ rule ∈ rules, 0 ≤ rule.action ∧ rule.action < 6
  fits : ¬kmalloc.refuses false rules.length

def Loadable (kmalloc : Kmalloc) (lists : RuleLists) : Prop :=
  ∀ chain, LoadableChain kmalloc chain (lists chain)

theorem loadable_nil : Loadable kmalloc fun _ => [] :=
  fun _ => ⟨by simp, by simp, fun refuses => refuses.1 rfl⟩

def allRecords (lists : RuleLists) : List RuleRecord :=
  recordsOf lists allChains

theorem recordLists_allRecords (loadable : Loadable kmalloc lists) :
    recordLists (allRecords lists) = lists := by
  funext chain
  have part : ∀ other, (((lists other).map recordFromRule).map ruleFromRecord).filter
      (fun rule => chainOf rule.chain = some chain) =
        if other = chain then lists other else [] := by
    intro other
    rw [List.map_map, show ruleFromRecord ∘ recordFromRule = id from rfl, List.map_id]
    split_ifs with here
    · subst here
      exact List.filter_eq_self.mpr fun rule mem =>
        decide_eq_true ((loadable other).placed rule mem)
    · refine List.filter_eq_nil_iff.mpr fun rule mem => ?_
      simpa [(loadable other).placed rule mem] using here
  simp only [recordLists, allRecords, recordsOf, allChains, List.flatMap_cons, List.flatMap_nil,
    List.map_append, List.filter_append, part, List.map_nil, List.filter_nil]
  fin_cases chain <;> simp

theorem Loadable.valid (loadable : Loadable kmalloc lists) :
    ∀ record ∈ allRecords lists, record.valid = true := by
  intro record mem
  obtain ⟨chain, -, mem⟩ := List.mem_flatMap.mp mem
  obtain ⟨rule, isRule, rfl⟩ := List.mem_map.mp mem
  have placed := (loadable chain).placed rule isRule
  have action := (loadable chain).actions rule isRule
  unfold chainOf at placed
  split_ifs at placed with inRange
  simp [RuleRecord.valid, recordFromRule, inRange, action]

theorem Loadable.load (loadable : Loadable kmalloc lists) {path : Bytes} (configured : path ≠ [])
    {answers : LoadAnswers} (good : answers.Good) {file : RuleFile}
    (isPart : file.records <+: allRecords lists) :
    ∃ loaded error, loadRuleFile kmalloc answers path (some file) {} = some (loaded, error) ∧
      (file.torn = true → loaded.Represents fun _ => []) ∧
      (file.torn = false → error = none ∧ loaded.Represents (recordLists file.records)) := by
  apply load_records configured good
  · exact fun record mem => loadable.valid record (isPart.subset mem)
  · intro chain
    have whole := congrFun (recordLists_allRecords loadable) chain
    have shorter : (recordLists file.records chain).length ≤ (lists chain).length := by
      rw [← whole]
      exact ((isPart.sublist.map ruleFromRecord).filter _).length_le
    exact not_refuses_of_le shorter (loadable chain).fits

theorem sum_recordLists {records : List RuleRecord}
    (valid : ∀ record ∈ records, record.valid = true) :
    ∑ chain, (recordLists records chain).length = records.length := by
  induction records with
  | nil => simp [recordLists]
  | cons record records ih =>
    obtain ⟨chain, isChain⟩ := valid_chain (valid record List.mem_cons_self)
    have counted : ∀ other, (recordLists (record :: records) other).length =
        (recordLists records other).length + if other = chain then 1 else 0 := by
      intro other
      by_cases here : other = chain
      · subst here
        simp [recordLists, isChain]
      · have elsewhere : ¬chain = other := fun same => here same.symm
        simp [recordLists, isChain, here, elsewhere]
    simp only [counted, Finset.sum_add_distrib, Finset.sum_ite_eq', Finset.mem_univ, if_true]
    rw [ih fun record mem => valid record (List.mem_cons_of_mem _ mem)]
    rfl

end RoundTrip

section Crash

variable {kmalloc : Kmalloc} {tables : RuleTables} {old new : RuleLists} {path : Bytes}

/-- Wherever the save stops, the next load has the old rules or the new ones. -/
def CrashSafe (kmalloc : Kmalloc) (path : Bytes) (file : Option RuleFile) (tables : RuleTables)
    (old new : RuleLists) : Prop :=
  ∀ (saving : SaveAnswers) (loading : LoadAnswers), loading.Good → ∃ loaded error,
    loadRuleFile kmalloc loading path (saveRuleFile saving path tables.snapshotRules file).1 {} =
      some (loaded, error) ∧ (loaded.Represents old ∨ loaded.Represents new)

def stopAfter (count : ℕ) : SaveAnswers where
  opens := true
  kmemdupFails := fun _ => false
  writes := fun index => if index < count then .whole else .nothing

theorem writeRules_stopAfter (rules : List Rule) (started : file.records.length ≤ count) :
    writeRules (stopAfter count) rules file =
      ({ file with records := (file.records ++ rules.map recordFromRule).take count },
        if file.records.length + rules.length ≤ count then none else some .write) := by
  induction rules generalizing file with
  | nil => simp [writeRules, started, List.take_of_length_le]
  | cons rule rules ih =>
    rw [writeRules]
    by_cases more : file.records.length < count
    · simp only [stopAfter, more, if_true]
      rw [← stopAfter, ih (by simpa using more)]
      simp [Nat.add_assoc, Nat.add_comm 1]
    · have full : file.records.length = count := by omega
      simp [stopAfter, full]

theorem saveChains_stopAfter (rules : RuleLists) (chains : List (Fin 3)) {file : RuleFile}
    (started : file.records.length ≤ count) :
    (saveChains (stopAfter count) rules chains file).1 =
      { file with records := (file.records ++ recordsOf rules chains).take count } := by
  induction chains generalizing file with
  | nil => simp [saveChains, recordsOf, started, List.take_of_length_le]
  | cons chain chains ih =>
    have isCons : recordsOf rules (chain :: chains) =
        (rules chain).map recordFromRule ++ recordsOf rules chains := List.flatMap_cons
    rw [saveChains, isCons, writeRules_stopAfter _ started]
    by_cases isEmpty : rules chain = []
    · simp [isEmpty, ih started]
    · simp only [isEmpty, if_false, stopAfter, Bool.false_eq_true]
      rw [← stopAfter]
      by_cases room : file.records.length + (rules chain).length ≤ count
      · have whole : (file.records ++ (rules chain).map recordFromRule).length ≤ count := by
          simpa using room
        simp only [room, if_true, List.take_of_length_le whole]
        rw [ih whole, List.append_assoc]
      · have full : count ≤ (file.records ++ (rules chain).map recordFromRule).length := by
          simp
          omega
        simp only [room, if_false]
        rw [← List.append_assoc, List.take_append_of_le_length full]

theorem Loadable.load_stopAfter (loadable : Loadable kmalloc new) (configured : path ≠ [])
    (isNew : tables.Represents new) {loading : LoadAnswers} (good : loading.Good)
    {file : Option RuleFile} (count : ℕ) :
    ∃ loaded error, loadRuleFile kmalloc loading path
        (saveRuleFile (stopAfter count) path tables.snapshotRules file).1 {} =
          some (loaded, error) ∧
      loaded.Represents (recordLists ((allRecords new).take count)) := by
  have isFile : (saveRuleFile (stopAfter count) path tables.snapshotRules file).1 =
      some { records := (allRecords new).take count } := by
    have saved := @saveChains_stopAfter count new allChains {} (Nat.zero_le count)
    rw [snapshotRules_of_represents isNew, saveRuleFile, if_neg configured]
    simpa [stopAfter, allRecords] using saved
  obtain ⟨loaded, error, isLoaded, -, whole⟩ :=
    @Loadable.load _ _ loadable _ configured _ good { records := (allRecords new).take count }
      (List.take_prefix _ _)
  rw [isFile]
  exact ⟨loaded, error, isLoaded, (whole rfl).2⟩

theorem CrashSafe.loads (configured : path ≠ []) (isNew : tables.Represents new)
    (loadable : Loadable kmalloc new) {file : Option RuleFile}
    (safe : CrashSafe kmalloc path file tables old new) :
    recordLists ((allRecords new).take count) = old ∨
      recordLists ((allRecords new).take count) = new := by
  have good : (⟨id, fun _ => false, fun _ => false⟩ : LoadAnswers).Good :=
    ⟨fun _ => rfl, fun _ => rfl⟩
  obtain ⟨loaded, error, isLoaded, represents⟩ :=
    @Loadable.load_stopAfter _ _ _ _ loadable configured isNew _ good file count
  obtain ⟨found, foundError, isFound, isOne⟩ := safe (stopAfter count) _ good
  obtain ⟨rfl, -⟩ := Prod.mk.inj (Option.some.inj (isLoaded.symm.trans isFound))
  exact isOne.imp represents.unique represents.unique

theorem length_of_loads (loadable : Loadable kmalloc new) (notEmpty : new ≠ fun _ => [])
    (loads : ∀ count, recordLists ((allRecords new).take count) = old ∨
      recordLists ((allRecords new).take count) = new) :
    (old = fun _ => []) ∧ (allRecords new).length = 1 := by
  have isWhole := recordLists_allRecords loadable
  have counted := sum_recordLists loadable.valid
  have oldEmpty : old = fun _ => [] := by
    rcases loads 0 with isOld | isNew
    · exact isOld.symm
    · exact absurd isNew.symm notEmpty
  have someRecord : (allRecords new).length ≠ 0 := by
    intro none
    rw [List.eq_nil_of_length_eq_zero none] at isWhole
    exact notEmpty isWhole.symm
  refine ⟨oldEmpty, ?_⟩
  have countedFirst := sum_recordLists fun record mem =>
    loadable.valid record (List.mem_of_mem_take (i := 1) mem)
  rw [List.length_take] at countedFirst
  rcases loads 1 with isOld | isNew
  · rw [isOld, oldEmpty] at countedFirst
    simp at countedFirst
    omega
  · rw [isNew, ← isWhole, counted] at countedFirst
    omega

theorem represents_of_part {loaded : RuleTables} (loadable : Loadable kmalloc new)
    (harmless : (new = fun _ => []) ∨ (old = fun _ => []) ∧ (allRecords new).length = 1)
    (isPart : file.records <+: allRecords new)
    (torn : file.torn = true → loaded.Represents fun _ => [])
    (whole : file.torn = false → loaded.Represents (recordLists file.records)) :
    loaded.Represents old ∨ loaded.Represents new := by
  rcases harmless with rfl | ⟨rfl, one⟩
  · have none : file.records = [] := List.prefix_nil.mp isPart
    rw [none] at whole
    cases isTorn : file.torn with
    | true => exact .inr (torn isTorn)
    | false => exact .inr (whole isTorn)
  · cases isTorn : file.torn with
    | true => exact .inl (torn isTorn)
    | false =>
      have represents := whole isTorn
      by_cases none : file.records = []
      · rw [none] at represents
        exact .inl represents
      · have all : file.records = allRecords new := by
          apply isPart.eq_of_length_le
          have notZero : file.records.length ≠ 0 := by simpa using none
          omega
        rw [all, recordLists_allRecords loadable] at represents
        exact .inr represents

/-- Stopping on the way is harmless only if there is nothing to write, or one record that follows
nothing. -/
theorem crashSafe_iff (configured : path ≠ []) (isNew : tables.Represents new)
    (loadableOld : Loadable kmalloc old) (loadableNew : Loadable kmalloc new) :
    CrashSafe kmalloc path (some { records := allRecords old }) tables old new ↔
      (new = fun _ => []) ∨ (old = fun _ => []) ∧ (allRecords new).length = 1 := by
  constructor
  · intro safe
    by_cases isEmpty : new = fun _ => []
    · exact .inl isEmpty
    · exact .inr (length_of_loads loadableNew isEmpty
        fun _ => safe.loads configured isNew loadableNew)
  · rintro harmless saving loading good
    rw [snapshotRules_of_represents isNew, saveRuleFile, if_neg configured]
    cases saving.opens with
    | false =>
      obtain ⟨loaded, error, isLoaded, -, whole⟩ :=
        @Loadable.load _ _ loadableOld _ configured _ good { records := allRecords old }
          List.prefix_rfl
      refine ⟨loaded, error, isLoaded, .inl ?_⟩
      rw [← recordLists_allRecords loadableOld]
      exact (whole rfl).2
    | true =>
      obtain ⟨⟨written, isPart, records⟩, -⟩ := @saveChains_wrote saving new allChains {}
      simp only [Bool.not_true, Bool.false_eq_true, if_false]
      generalize (saveChains saving new allChains {}).1 = file at records
      rw [List.nil_append] at records
      subst records
      rw [← allRecords] at isPart
      obtain ⟨loaded, error, isLoaded, torn, whole⟩ := loadableNew.load configured good isPart
      refine ⟨loaded, error, isLoaded, ?_⟩
      exact represents_of_part loadableNew harmless isPart torn fun isWhole => (whole isWhole).2

def sourceRule (source : UInt32) : Rule where
  chain := 0
  source
  dest := 0
  sport := 0
  dport := 0
  protocol := 0
  action := 0
  ifname := Vector.replicate 8 0
  addtion := Vector.replicate 4 0

def onePage : Kmalloc where
  maxSize := 4096
  maxSize_le := by decide

/-- Whatever happens while no rules are saved in the place of one. -/
theorem flush_crashSafe :
    CrashSafe onePage [47]
      (some { records := allRecords fun chain => if chain = 0 then [sourceRule 1] else [] }) {}
      (fun chain => if chain = 0 then [sourceRule 1] else []) fun _ => [] := by
  have loadable : Loadable onePage fun chain => if chain = 0 then [sourceRule 1] else [] := by
    intro chain
    fin_cases chain <;> exact ⟨by decide, by decide, by decide⟩
  have isEmpty : RuleTables.Represents {} fun _ => [] :=
    (@holds_initial onePage).represents
  exact (crashSafe_iff (by decide) isEmpty loadable loadable_nil).mpr (.inl rfl)

/-- The machine stops when the file of one rule has been truncated for two: no rule is loaded. -/
theorem rules_lost :
    (executeAll onePage {}
      [⟨.append, sourceRule 1, 0, false⟩, ⟨.append, sourceRule 2, 0, false⟩]).map (fun executed =>
        let tables := executed.1
        (tables.snapshotRules 0,
          (loadRuleFile onePage ⟨id, fun _ => false, fun _ => false⟩ [47]
            (saveRuleFile (stopAfter 0) [47] tables.snapshotRules
              (some { records := [recordFromRule (sourceRule 1)] })).1 {}).map fun loaded =>
                (loaded.1.snapshotRules 0, loaded.2))) =
      some ([sourceRule 1, sourceRule 2], some ([], none)) := by
  decide +kernel

end Crash

end IotProxy.Sipfw

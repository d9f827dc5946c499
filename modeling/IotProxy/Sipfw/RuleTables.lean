import IotProxy.Lib.LinkedList

/-!
# The rule tables of the packet filter

Every chain of the filter has a linked list of rules, the number of them, and a snapshot of the list
that the packet path reads. The commands change the lists in place. A command that needs a snapshot
allocates it before it changes anything, so that nothing can fail afterwards.

The functions work on a heap of rules, and fail where the code would use a rule that is not
allocated or a slot that the snapshot does not have. A chain is given by its index; rules are what
user space sends, with any chain number.

Locks are left out, since every command holds the lock of its chain, and the memory of old
snapshots.
-/

namespace IotProxy.Sipfw

open LinkedList

/-- `struct sipfw_rules` without its pointer. -/
structure Rule where
  chain : ℤ
  source : UInt32
  dest : UInt32
  sport : UInt16
  dport : UInt16
  protocol : UInt8
  action : ℤ
  ifname : Vector UInt8 8
  addtion : Vector UInt8 4
  deriving DecidableEq

inductive Errno where
  | einval
  | enoent
  | enomem
  deriving DecidableEq

/-- `struct sipfw_rule_snapshot`, with the number of slots that it was allocated for. -/
structure RuleSnapshot where
  capacity : ℕ
  count : ℕ
  rules : List Rule := []
  deriving DecidableEq

/-- `struct sipfw_list` -/
structure SipfwList where
  rule : Option ℕ := none
  snapshot : Option RuleSnapshot := none
  number : ℤ := 0
  deriving DecidableEq

structure RuleTables where
  heap : Heap Rule := .empty
  lists : Fin 3 → SipfwList := fun _ => {}

/-- The kernel's allocator refuses sizes above a limit. -/
structure Kmalloc where
  maxSize : ℕ
  maxSize_le : maxSize ≤ 2 ^ 31

section Snapshots

def toUnsigned (number : ℤ) : ℕ :=
  (number % 2 ^ 32).toNat

def toSigned (count : ℕ) : ℤ :=
  Int.bmod count (2 ^ 32)

/-- `SIPFW_AllocRuleSnapshot`, where the allocation may also fail for want of memory. -/
def allocRuleSnapshot (kmalloc : Kmalloc) (fails : Bool) (count : ℕ) : Option RuleSnapshot :=
  if count = 0 then none
  else if fails ∨ kmalloc.maxSize < 24 + 48 * count then none
  else some { capacity := count, count }

def prepareRuleSnapshotLocked (kmalloc : Kmalloc) (fails : Bool) (newCount : ℕ) :
    Except Errno (Option RuleSnapshot) :=
  if newCount = 0 then .ok none
  else
    match allocRuleSnapshot kmalloc fails newCount with
    | none => .error .enomem
    | some snapshot => .ok (some snapshot)

def publishRuleSnapshotLocked (heap : Heap Rule) (list : SipfwList) :
    Option RuleSnapshot → Option SipfwList
  | none => some { list with snapshot := none }
  | some snapshot =>
    match collect heap (toUnsigned list.number) list.rule with
    | none => none
    | some rules =>
      if rules.length ≤ snapshot.capacity then
        some { list with snapshot := some { snapshot with count := rules.length, rules } }
      else none

def commitRuleUpdateLocked (heap : Heap Rule) (list : SipfwList) (newCount : ℕ)
    (snapshot : Option RuleSnapshot) : Option SipfwList :=
  publishRuleSnapshotLocked heap { list with number := toSigned newCount } snapshot

end Snapshots

section Commands

variable (kmalloc : Kmalloc) (fails : Bool) (tables : RuleTables)

/-- The result of a command: the tables, and the error if there is one. -/
abbrev Outcome := Option (RuleTables × Option Errno)

def chainOf (chain : ℤ) : Option (Fin 3) :=
  if 0 ≤ chain ∧ chain < 3 then some (Fin.ofNat 3 chain.toNat) else none

def allChains : List (Fin 3) := [0, 1, 2]

/-- `kfree(rule); return error` -/
def RuleTables.giveUp (rule : ℕ) (error : Errno) : Outcome :=
  (tables.heap.free rule).map fun heap => ({ tables with heap }, some error)

/-- The checks with which most commands begin. -/
def RuleTables.onChain (pointer : Option ℕ) (act : ℕ → Rule → Fin 3 → Outcome) : Outcome :=
  match pointer with
  | none => some (tables, some .einval)
  | some rule => do
      let node ← tables.heap.node rule
      match chainOf node.value.chain with
      | none => tables.giveUp rule .einval
      | some chain => act rule node.value chain

/-- Go on with a snapshot for the rules that there will be, or give up. -/
def RuleTables.prepareOrGiveUp (rule newCount : ℕ)
    (goOn : Option RuleSnapshot → Outcome) : Outcome :=
  match prepareRuleSnapshotLocked kmalloc fails newCount with
  | .error error => tables.giveUp rule error
  | .ok snapshot => goOn snapshot

/-- The comparison of `SIPFW_NLAction_RuleDelete`. -/
def Rule.sameFields (cur rule : Rule) : Bool :=
  cur.action == rule.action && cur.chain == rule.chain && cur.source == rule.source &&
    cur.dest == rule.dest && cur.sport == rule.sport && cur.dport == rule.dport &&
    cur.protocol == rule.protocol && cur.ifname == rule.ifname && cur.addtion == rule.addtion

def RuleTables.withList (heap : Heap Rule) (chain : Fin 3) (list : SipfwList) : RuleTables :=
  { heap, lists := Function.update tables.lists chain list }

def linkLast (heap : Heap Rule) (first : Option ℕ) (rule : ℕ) : Option (Heap Rule × Option ℕ) :=
  match first with
  | none => some (heap, some rule)
  | some cur => do
      let cur ← last heap (heap.top + 1) cur
      let heap ← heap.setNext cur (some rule)
      some (heap, first)

/-- `SIPFW_NLAction_RuleAppend` -/
def ruleAppend (pointer : Option ℕ) : Outcome :=
  tables.onChain pointer fun rule _ chain => do
    let heap ← tables.heap.setNext rule none
    let list := tables.lists chain
    let newCount := toUnsigned (list.number + 1)
    RuleTables.prepareOrGiveUp kmalloc fails { tables with heap } rule newCount
      fun snapshot => do
        let linked ← linkLast heap list.rule rule
        let list ← commitRuleUpdateLocked linked.1 { list with rule := linked.2 } newCount snapshot
        some (tables.withList linked.1 chain list, none)

/-- Take the rule that `link` leads to out of its list, as both branches of
`SIPFW_NLAction_RuleDelete` do, and free it and the argument. -/
def unlinkRule (rule : ℕ) (chain : Fin 3) (link : Link) : Outcome :=
  let list := tables.lists chain
  let newCount := toUnsigned (list.number - 1)
  tables.prepareOrGiveUp kmalloc fails rule newCount fun snapshot => do
    let pointer ← read tables.heap list.rule link
    let victim ← pointer
    let node ← tables.heap.node victim
    let linked ← write tables.heap list.rule node.next link
    let heap ← linked.1.setNext victim none
    let list ← commitRuleUpdateLocked heap { list with rule := linked.2 } newCount snapshot
    let heap ← heap.free victim
    let heap ← heap.free rule
    some (tables.withList heap chain list, none)

/-- `SIPFW_NLAction_RuleDelete` -/
def ruleDelete (number : ℤ) (pointer : Option ℕ) : Outcome :=
  tables.onChain pointer fun rule content chain => do
    let list := tables.lists chain
    if number ≠ -1 then
      if number ≤ 0 ∨ list.number < number then tables.giveUp rule .enoent
      else
        let link ← walk tables.heap list.rule (number - 1).toNat .head
        let found ← read tables.heap list.rule link
        match found with
        | some _ => unlinkRule kmalloc fails tables rule chain link
        | none => tables.giveUp rule .enoent
    else
      let found ← seek tables.heap list.rule (fun cur => cur.sameFields content)
        (tables.heap.top + 1) .head
      match found with
      | some link => unlinkRule kmalloc fails tables rule chain link
      | none => tables.giveUp rule .enoent

/-- `SIPFW_NLAction_RuleReplace` -/
def ruleReplace (number : ℤ) (pointer : Option ℕ) : Outcome :=
  tables.onChain pointer fun rule _ chain => do
    let list := tables.lists chain
    if number ≤ 0 then tables.giveUp rule .einval
    else if list.number < number then tables.giveUp rule .enoent
    else
      let link ← walk tables.heap list.rule (number - 1).toNat .head
      let found ← read tables.heap list.rule link
      match found with
      | none => tables.giveUp rule .enoent
      | some old =>
        let newCount := toUnsigned list.number
        tables.prepareOrGiveUp kmalloc fails rule newCount fun snapshot => do
          let oldNode ← tables.heap.node old
          let heap ← tables.heap.setNext rule oldNode.next
          let linked ← write heap list.rule (some rule) link
          let heap ← linked.1.setNext old none
          let list ← commitRuleUpdateLocked heap { list with rule := linked.2 } newCount snapshot
          let heap ← heap.free old
          some (tables.withList heap chain list, none)

/-- `SIPFW_NLAction_RuleInsert` -/
def ruleInsert (number : ℤ) (pointer : Option ℕ) : Outcome :=
  tables.onChain pointer fun rule _ chain =>
    let list := tables.lists chain
    if number ≤ 0 then tables.giveUp rule .einval
    else
      let newCount := toUnsigned (list.number + 1)
      tables.prepareOrGiveUp kmalloc fails rule newCount fun snapshot => do
        let link ← walk tables.heap list.rule (number - 1).toNat .head
        let next ← read tables.heap list.rule link
        let heap ← tables.heap.setNext rule next
        let linked ← write heap list.rule (some rule) link
        let list ← commitRuleUpdateLocked linked.1 { list with rule := linked.2 } newCount snapshot
        some (tables.withList linked.1 chain list, none)

/-- The body of the loop of `SIPFW_NLAction_RuleFlush`. -/
def flushChain (chain : Fin 3) : Option RuleTables := do
  let list := tables.lists chain
  let flushed ← commitRuleUpdateLocked tables.heap { list with rule := none } 0 none
  let heap ← freeAll (tables.heap.top + 1) tables.heap list.rule
  some (tables.withList heap chain flushed)

/-- `SIPFW_NLAction_RuleFlush`, for which the chain 3 stands for all chains. -/
def ruleFlush : Option ℕ → Outcome
  | none => some (tables, some .einval)
  | some rule => do
      let node ← tables.heap.node rule
      if node.value.chain = 3 then
        let tables ← flushChain tables 0
        let tables ← flushChain tables 1
        let tables ← flushChain tables 2
        let heap ← tables.heap.free rule
        some ({ tables with heap }, none)
      else
        tables.onChain (some rule) fun rule _ chain => do
          let tables ← flushChain tables chain
          let heap ← tables.heap.free rule
          some ({ tables with heap }, none)

end Commands

section Specification

inductive CommandKind where
  | append
  | insert (number : ℤ)
  | replace (number : ℤ)
  /-- With the number -1, the rule is deleted by its fields. -/
  | delete (number : ℤ)
  | flush
  deriving DecidableEq

/-- A command with its rule, which is allocated at the wished address if that is free, and whether
the allocation of a snapshot fails for want of memory. -/
structure Command where
  kind : CommandKind
  rule : Rule
  wish : ℕ
  fails : Bool
  deriving DecidableEq

/-- A command on the linked lists of the kernel module. -/
def Command.execute (kmalloc : Kmalloc) (tables : RuleTables) (command : Command) : Outcome :=
  let allocated := tables.heap.alloc command.wish command.rule
  let tables := { tables with heap := allocated.1 }
  let rule := some allocated.2
  match command.kind with
  | .append => ruleAppend kmalloc command.fails tables rule
  | .insert number => ruleInsert kmalloc command.fails tables number rule
  | .replace number => ruleReplace kmalloc command.fails tables number rule
  | .delete number => ruleDelete kmalloc command.fails tables number rule
  | .flush => ruleFlush tables rule

/-- What the tables are for: a list of rules for every chain. -/
abbrev RuleLists := Fin 3 → List Rule

/-- There is no memory for a snapshot of so many rules. No rules need no memory. -/
def Kmalloc.refuses (kmalloc : Kmalloc) (fails : Bool) (count : ℕ) : Prop :=
  count ≠ 0 ∧ (fails ∨ kmalloc.maxSize < 24 + 48 * count)

instance (kmalloc : Kmalloc) (fails : Bool) (count : ℕ) :
    Decidable (kmalloc.refuses fails count) :=
  inferInstanceAs (Decidable (_ ∧ _))

/-- Change the list of a chain, if there is memory for its snapshot. -/
def RuleLists.change (kmalloc : Kmalloc) (fails : Bool) (lists : RuleLists) (chain : Fin 3)
    (new : List Rule) : RuleLists × Option Errno :=
  if kmalloc.refuses fails new.length then (lists, some .enomem)
  else (Function.update lists chain new, none)

/-- What a command is to do with the list of its chain. -/
def Command.specify (kmalloc : Kmalloc) (lists : RuleLists) (command : Command) :
    RuleLists × Option Errno :=
  if command.kind = .flush ∧ command.rule.chain = 3 then (fun _ => [], none)
  else
    match chainOf command.rule.chain with
    | none => (lists, some .einval)
    | some chain =>
      let rules := lists chain
      match command.kind with
      | .append => lists.change kmalloc command.fails chain (rules ++ [command.rule])
      | .insert number =>
        if number ≤ 0 then (lists, some .einval)
        else
          lists.change kmalloc command.fails chain
            (rules.insertIdx (min number.toNat (rules.length + 1) - 1) command.rule)
      | .replace number =>
        if number ≤ 0 then (lists, some .einval)
        else if rules.length < number then (lists, some .enoent)
        else
          lists.change kmalloc command.fails chain (rules.set (number.toNat - 1) command.rule)
      | .delete number =>
        if number ≠ -1 then
          if number ≤ 0 ∨ rules.length < number then (lists, some .enoent)
          else lists.change kmalloc command.fails chain (rules.eraseIdx (number.toNat - 1))
        else if command.rule ∈ rules then
          lists.change kmalloc command.fails chain (rules.erase command.rule)
        else (lists, some .enoent)
      | .flush => (Function.update lists chain [], none)

def executeAll (kmalloc : Kmalloc) (tables : RuleTables) :
    List Command → Option (RuleTables × List (Option Errno))
  | [] => some (tables, [])
  | command :: commands => do
      let executed ← command.execute kmalloc tables
      let rest ← executeAll kmalloc executed.1 commands
      some (rest.1, executed.2 :: rest.2)

def specifyAll (kmalloc : Kmalloc) (lists : RuleLists) :
    List Command → RuleLists × List (Option Errno)
  | [] => (lists, [])
  | command :: commands =>
    let specified := command.specify kmalloc lists
    let rest := specifyAll kmalloc specified.1 commands
    (rest.1, specified.2 :: rest.2)

/-- The snapshot of a list, which an empty list does not have. -/
def snapshotOf (rules : List Rule) : Option RuleSnapshot :=
  if rules = [] then none
  else some { capacity := rules.length, count := rules.length, rules }

/-- Every chain has the list, its length and its snapshot. -/
structure RuleTables.Represents (tables : RuleTables) (lists : RuleLists) : Prop where
  linked : ∀ chain, ∃ cells, Chain tables.heap (tables.lists chain).rule cells ∧
    values cells = lists chain
  number : ∀ chain, (tables.lists chain).number = (lists chain).length
  snapshot : ∀ chain, (tables.lists chain).snapshot = snapshotOf (lists chain)

end Specification

end IotProxy.Sipfw

import IotProxy.Lib.Run
import IotProxy.Sipfw.Configuration
import IotProxy.Sipfw.RuleFile

/-!
# The commands of user space

`SIPFW_NLDoAction` checks a command, carries it out, saves the rules, and tells user space whether
all of this has worked. It is silent when it refuses an action or has no memory for the rule, and it
does not take a change back that it cannot save.

The messages with the rules that a list command asks for are left out.
-/

namespace IotProxy.Sipfw

open EventSystem (Run)
open LinkedList Option

inductive Cmd where
  | insert
  | delete
  | append
  | list
  | flush
  | replace
  | unknown
  deriving DecidableEq

def Cmd.adds : Cmd → Bool
  | .insert | .append | .replace => true
  | .delete | .list | .flush | .unknown => false

def Cmd.kind (number : ℤ) : Cmd → Option CommandKind
  | .insert => some (.insert number)
  | .delete => some (.delete number)
  | .append => some .append
  | .flush => some .flush
  | .replace => some (.replace number)
  | .list | .unknown => none

/-- `struct sipfw_cmd_opts` -/
structure CmdOpts where
  command : Cmd
  source : UInt32
  dest : UInt32
  sport : UInt32
  dport : UInt32
  protocol : ℤ
  chain : ℤ
  ifname : Vector UInt8 8
  action : ℤ
  addtion : Vector UInt8 4
  number : ℤ

def CmdOpts.rule (opts : CmdOpts) : Rule where
  chain := opts.chain
  source := opts.source
  dest := opts.dest
  sport := opts.sport.toUInt16
  dport := opts.dport.toUInt16
  protocol := if 0 < opts.protocol then .ofNat opts.protocol.toNat else 0
  action := opts.action
  ifname := opts.ifname
  addtion := opts.addtion

inductive Reply where
  | success
  | failure
  deriving DecidableEq

structure NlAnswers where
  kzallocFails : Bool := false
  wish : ℕ
  snapshotFails : Bool := false
  kcallocFails : Bool := false
  save : SaveAnswers
  /-- The reply cannot be allocated or delivered. -/
  replyFails : Bool := false

structure NlState where
  tables : RuleTables := {}
  file : Option RuleFile

section Action

variable (kmalloc : Kmalloc) (path : Bytes) (tables : RuleTables)

/-- `SIPFW_NLAction_RuleList` -/
def ruleList (kcallocFails : Bool) (rule : ℕ) : Outcome := do
  let node ← tables.heap.node rule
  let count (chains : List (Fin 3)) : ℕ :=
    (chains.map fun chain => toUnsigned (tables.lists chain).number).sum % 2 ^ 32
  let answer (count : ℕ) : Outcome :=
    if count ≠ 0 ∧ kcallocFails then tables.giveUp rule .enomem
    else (tables.heap.free rule).map fun heap => ({ tables with heap }, none)
  if node.value.chain = 3 then answer (count allChains)
  else
    match chainOf node.value.chain with
    | none => tables.giveUp rule .einval
    | some chain => answer (count [chain])

def NlAnswers.commandOf (answers : NlAnswers) (opts : CmdOpts) (kind : CommandKind) : Command where
  kind
  rule := opts.rule
  wish := answers.wish
  fails := answers.snapshotFails

def CmdOpts.perform (opts : CmdOpts) (answers : NlAnswers) : Outcome :=
  match opts.command.kind opts.number with
  | some kind => (answers.commandOf opts kind).execute kmalloc tables
  | none =>
    let allocated := tables.heap.alloc answers.wish opts.rule
    let tables := { tables with heap := allocated.1 }
    if opts.command = .list then ruleList tables answers.kcallocFails allocated.2
    else tables.giveUp allocated.2 .einval

/-- `SIPFW_NLDoAction`: the state and the replies. -/
def nlDoAction (state : NlState) (opts : CmdOpts) (answers : NlAnswers) :
    Option (NlState × List Reply) :=
  if opts.command.adds ∧ ¬(0 ≤ opts.action ∧ opts.action < 6) then some (state, [])
  else if answers.kzallocFails then some (state, [])
  else do
    let performed ← opts.perform kmalloc state.tables answers
    let tables := performed.1
    if opts.command = .list ∧ performed.2 = none then some ({ state with tables }, [])
    else
      let saved :=
        if performed.2 = none then saveRuleFile answers.save path tables.snapshotRules state.file
        else (state.file, none)
      let reply := if performed.2 = none ∧ saved.2 = none then Reply.success else .failure
      some ({ tables, file := saved.1 }, if answers.replyFails then [] else [reply])

def nlStep (state : NlState) (event : CmdOpts × NlAnswers) : Option NlState :=
  (nlDoAction kmalloc path state event.1 event.2).map Prod.fst

end Action

variable {kmalloc : Kmalloc} {path : Bytes} {tables : RuleTables} {state : NlState}
  {cells : Fin 3 → List (ℕ × Rule)} {lists : RuleLists} {opts : CmdOpts} {answers : NlAnswers}

section Perform

def CmdOpts.change (opts : CmdOpts) (kmalloc : Kmalloc) (answers : NlAnswers)
    (lists : RuleLists) : RuleLists :=
  match opts.command.kind opts.number with
  | some kind => ((answers.commandOf opts kind).specify kmalloc lists).1
  | none => lists

variable {rule : ℕ}

theorem Holds.release (holds : Holds kmalloc tables cells {rule}) :
    ∃ heap, tables.heap.free rule = some heap ∧ Holds kmalloc { tables with heap } cells 0 := by
  have layout := holds.layout
  rw [← Multiset.cons_zero] at layout
  obtain ⟨freed, isLayout⟩ := layout.free
  exact ⟨_, freed, holds.withHeap isLayout⟩

theorem Holds.giveUp_eq (holds : Holds kmalloc tables cells {rule}) (error : Errno) :
    ∃ after, tables.giveUp rule error = some (after, some error) ∧ Holds kmalloc after cells 0 := by
  obtain ⟨heap, freed, isHeap⟩ := holds.release
  exact ⟨_, by rw [RuleTables.giveUp, freed, map_some], isHeap⟩

theorem Holds.ruleList (holds : Holds kmalloc tables cells {rule}) {content : Rule}
    (isNode : tables.heap.node rule = some ⟨content, none⟩) (kcallocFails : Bool) :
    ∃ after error, ruleList tables kcallocFails rule = some (after, error) ∧
      Holds kmalloc after cells 0 := by
  obtain ⟨heap, freed, isHeap⟩ := holds.release
  obtain ⟨refused, isRefused, holdsRefused⟩ := holds.giveUp_eq .enomem
  obtain ⟨invalid, isInvalid, holdsInvalid⟩ := holds.giveUp_eq .einval
  simp only [Sipfw.ruleList, isNode, bind_eq_bind, bind_some, freed, map_some, isRefused, isInvalid]
  split_ifs
  · exact ⟨_, _, rfl, holdsRefused⟩
  · exact ⟨_, _, rfl, isHeap⟩
  · cases chainOf content.chain with
    | none => exact ⟨_, _, rfl, holdsInvalid⟩
    | some chain =>
      dsimp only
      split_ifs
      · exact ⟨_, _, rfl, holdsRefused⟩
      · exact ⟨_, _, rfl, isHeap⟩

theorem Holds.perform (holds : Holds kmalloc tables cells 0) (opts : CmdOpts)
    (answers : NlAnswers) :
    ∃ after error final, opts.perform kmalloc tables answers = some (after, error) ∧
      Holds kmalloc after final 0 ∧ listsOf final = opts.change kmalloc answers (listsOf cells) ∧
      (∀ kind, opts.command.kind opts.number = some kind →
        error = ((answers.commandOf opts kind).specify kmalloc (listsOf cells)).2) ∧
      (opts.command.kind opts.number = none → opts.command ≠ .list → error ≠ none) := by
  unfold CmdOpts.perform CmdOpts.change
  cases isKind : opts.command.kind opts.number with
  | some kind =>
    obtain ⟨after, final, executed, holdsAfter, isFinal, -⟩ :=
      holds.execute (answers.commandOf opts kind)
    refine ⟨after, _, final, executed, holdsAfter, isFinal, ?_, fun noKind => by cases noKind⟩
    intro other same
    rw [Option.some.inj same]
  | none =>
    have ready := holds.alloc answers.wish opts.rule
    have isNode : (tables.heap.alloc answers.wish opts.rule).1.node
        (tables.heap.alloc answers.wish opts.rule).2 = some ⟨opts.rule, none⟩ :=
      Heap.node_store_self _
    dsimp only
    split_ifs with isList
    · obtain ⟨after, error, listed, holdsAfter⟩ := ready.ruleList isNode answers.kcallocFails
      exact ⟨after, error, cells, listed, holdsAfter, rfl, fun _ same => (by cases same),
        fun _ notList => absurd isList notList⟩
    · obtain ⟨after, refused, holdsAfter⟩ := ready.giveUp_eq .einval
      exact ⟨after, _, cells, refused, holdsAfter, rfl, fun _ same => (by cases same),
        fun _ _ => some_ne_none _⟩

theorem nlDoAction_of_performed {error : Option Errno}
    (checked : ¬(opts.command.adds = true ∧ ¬(0 ≤ opts.action ∧ opts.action < 6)))
    (memory : answers.kzallocFails = false)
    (performed : opts.perform kmalloc state.tables answers = some (tables, error)) :
    nlDoAction kmalloc path state opts answers =
      if opts.command = .list ∧ error = none then some ({ state with tables }, [])
      else
        let saved :=
          if error = none then saveRuleFile answers.save path tables.snapshotRules state.file
          else (state.file, none)
        some ({ tables, file := saved.1 }, if answers.replyFails then []
          else [if error = none ∧ saved.2 = none then .success else .failure]) := by
  rw [nlDoAction, if_neg checked, if_neg (by simp [memory]), performed]
  rfl

end Perform

variable {file : Option RuleFile}

section Reachable

theorem Loadable.update {chain : Fin 3} {new : List Rule} (loadable : Loadable kmalloc lists)
    (isNew : LoadableChain kmalloc chain new) :
    Loadable kmalloc (Function.update lists chain new) := by
  apply (Function.forall_update_iff lists (LoadableChain kmalloc)).mpr
  exact ⟨isNew, fun other _ => loadable other⟩

theorem Loadable.changed {fails : Bool} {chain : Fin 3} {new : List Rule}
    (loadable : Loadable kmalloc lists) (accepted : ∀ rule ∈ new, rule ∈ lists chain ∨
      chainOf rule.chain = some chain ∧ 0 ≤ rule.action ∧ rule.action < 6) :
    Loadable kmalloc (lists.change kmalloc fails chain new).1 := by
  unfold RuleLists.change
  split_ifs with refused
  · exact loadable
  · refine loadable.update ⟨?_, ?_, ?_⟩
    · exact fun rule mem => (accepted rule mem).elim ((loadable chain).placed rule) And.left
    · exact fun rule mem => (accepted rule mem).elim ((loadable chain).actions rule) And.right
    · unfold Kmalloc.refuses at refused ⊢
      exact fun refuses => refused ⟨refuses.1, .inr (refuses.2.resolve_left Bool.false_ne_true)⟩

theorem Loadable.specify (loadable : Loadable kmalloc lists) {command : Command}
    (checked : command.kind ≠ .flush → (∀ number, command.kind ≠ .delete number) →
      0 ≤ command.rule.action ∧ command.rule.action < 6) :
    Loadable kmalloc (command.specify kmalloc lists).1 := by
  unfold Command.specify
  split_ifs with isFlush
  · exact loadable_nil
  cases isChain : chainOf command.rule.chain with
  | none => exact loadable
  | some chain =>
    cases isKind : command.kind with
    | append =>
      refine loadable.changed fun rule mem => ?_
      have action := checked (by simp [isKind]) (by simp [isKind])
      rcases List.mem_append.mp mem with isOld | isNew
      · exact .inl isOld
      · exact .inr (List.mem_singleton.mp isNew ▸ ⟨isChain, action⟩)
    | insert number =>
      dsimp only
      split_ifs
      · exact loadable
      refine loadable.changed fun rule mem => ?_
      have action := checked (by simp [isKind]) (by simp [isKind])
      rcases List.eq_or_mem_of_mem_insertIdx mem with isNew | isOld
      · exact .inr (isNew ▸ ⟨isChain, action⟩)
      · exact .inl isOld
    | replace number =>
      dsimp only
      split_ifs
      · exact loadable
      · exact loadable
      refine loadable.changed fun rule mem => ?_
      have action := checked (by simp [isKind]) (by simp [isKind])
      rcases List.mem_or_eq_of_mem_set mem with isOld | isNew
      · exact .inl isOld
      · exact .inr (isNew ▸ ⟨isChain, action⟩)
    | delete number =>
      dsimp only
      split_ifs
      · exact loadable
      · exact loadable.changed fun rule mem => .inl (List.mem_of_mem_eraseIdx mem)
      · exact loadable.changed fun rule mem => .inl (List.mem_of_mem_erase mem)
      · exact loadable
    | flush => exact loadable.update (loadable_nil chain)

/-- The tables have their nodes, and the rules can be loaded. -/
def Ready (kmalloc : Kmalloc) (tables : RuleTables) : Prop :=
  ∃ cells, Holds kmalloc tables cells 0 ∧ Loadable kmalloc (listsOf cells)

theorem Loadable.commanded (loadable : Loadable kmalloc lists)
    (checked : ¬(opts.command.adds = true ∧ ¬(0 ≤ opts.action ∧ opts.action < 6))) :
    Loadable kmalloc (opts.change kmalloc answers lists) := by
  unfold CmdOpts.change
  cases isKind : opts.command.kind opts.number with
  | none => exact loadable
  | some kind =>
    apply loadable.specify
    intro notFlush notDelete
    by_contra outside
    refine checked ⟨?_, outside⟩
    -- the other commands are not checked
    cases isCommand : opts.command <;> simp_all [Cmd.kind, Cmd.adds, NlAnswers.commandOf]
    · exact absurd isKind.symm (notDelete opts.number)

theorem Ready.nlDoAction (ready : Ready kmalloc state.tables) {after : NlState}
    {replies : List Reply}
    (done : nlDoAction kmalloc path state opts answers = some (after, replies)) :
    Ready kmalloc after.tables := by
  obtain ⟨cells, holds, loadable⟩ := ready
  obtain ⟨tables, error, final, performed, holdsAfter, isFinal, -⟩ := holds.perform opts answers
  by_cases refused : opts.command.adds = true ∧ ¬(0 ≤ opts.action ∧ opts.action < 6)
  · rw [Sipfw.nlDoAction, if_pos refused] at done
    obtain ⟨rfl, -⟩ := Prod.mk.inj (Option.some.inj done)
    exact ⟨cells, holds, loadable⟩
  cases memory : answers.kzallocFails with
  | true =>
    rw [Sipfw.nlDoAction, if_neg refused, if_pos memory] at done
    obtain ⟨rfl, -⟩ := Prod.mk.inj (Option.some.inj done)
    exact ⟨cells, holds, loadable⟩
  | false =>
    have isReady : Ready kmalloc tables := ⟨final, holdsAfter, isFinal ▸ loadable.commanded refused⟩
    rw [nlDoAction_of_performed refused memory performed] at done
    by_cases listed : opts.command = .list ∧ error = none
    · rw [if_pos listed] at done
      obtain ⟨rfl, -⟩ := Prod.mk.inj (Option.some.inj done)
      exact isReady
    · rw [if_neg listed] at done
      obtain ⟨rfl, -⟩ := Prod.mk.inj (Option.some.inj done)
      exact isReady

theorem ready_of_run {events : List (CmdOpts × NlAnswers)}
    (run : Run (nlStep kmalloc path) (fun _ _ => True) { file } events state) :
    Ready kmalloc state.tables := by
  have initially : Ready kmalloc (NlState.tables { file }) :=
    ⟨fun _ => [], holds_initial, loadable_nil⟩
  refine @Run.invariant _ _ _ _ _ _ _ (fun state => Ready kmalloc state.tables) initially ?_ run
  intro before after event _ taken ready
  obtain ⟨⟨next, replies⟩, done, rfl⟩ := map_eq_some_iff.mp taken
  exact ready.nlDoAction done

def appendRule (action : ℤ) : CmdOpts where
  command := .append
  source := 1
  dest := 0
  sport := 0
  dport := 0
  protocol := 0
  chain := 0
  ifname := Vector.replicate 8 0
  action
  addtion := Vector.replicate 4 0
  number := -1

/-- Rules that commands have brought into the tables are loaded as they were saved, with the path
that the loading of the configuration has left. -/
theorem rules_reloaded {charSigned : Bool} {fuel : ℕ} {line : Bytes} {content : Option Bytes}
    {conf : SipfwConf} {handled : List Bytes}
    (configured : handleConf charSigned fuel line {} content = some (conf, handled))
    {file saved : Option RuleFile} {events : List (CmdOpts × NlAnswers)}
    (run : Run (nlStep kmalloc conf.ruleFilePath) (fun _ _ => True) { file } events state)
    {saving : SaveAnswers}
    (succeeds : saveRuleFile saving conf.ruleFilePath state.tables.snapshotRules state.file =
      (saved, none))
    {loading : LoadAnswers} (good : loading.Good) :
    ∃ lists loaded, state.tables.Represents lists ∧
      loadRuleFile kmalloc loading conf.ruleFilePath saved {} = some (loaded, none) ∧
      loaded.Represents lists := by
  have hasPath : conf.ruleFilePath ≠ [] := by
    rw [handleConf_returns configured]
    decide
  obtain ⟨cells, holds, loadable⟩ := ready_of_run run
  have represents := holds.represents
  obtain ⟨-, isWhole⟩ := @saveChains_wrote saving (listsOf cells) allChains {}
  rw [snapshotRules_of_represents represents, saveRuleFile, if_neg hasPath] at succeeds
  split_ifs at succeeds with refused
  · cases (Prod.mk.inj succeeds).2
  obtain ⟨rfl, noError⟩ := Prod.mk.inj succeeds
  obtain ⟨loaded, error, isLoaded, -, whole⟩ :=
    @Loadable.load _ _ loadable _ hasPath _ good { records := allRecords (listsOf cells) }
      List.prefix_rfl
  obtain ⟨rfl, isRepresented⟩ := whole rfl
  rw [recordLists_allRecords loadable] at isRepresented
  refine ⟨_, loaded, represents, ?_, isRepresented⟩
  rw [isWhole noError]
  exact isLoaded

/-- A rule that is appended, saved and loaded, by a module without a configuration file. -/
theorem appended_rule_reloaded :
    let path := SipfwConf.ruleFilePath {}
    ∃ state lists loaded,
      nlStep onePage path { file := none } (appendRule 1, { wish := 0, save := stopAfter 1 }) =
        some state ∧
      state.tables.Represents lists ∧
      loadRuleFile onePage ⟨id, fun _ => false, fun _ => false⟩ path
        (saveRuleFile (stopAfter 1) path state.tables.snapshotRules state.file).1 {} =
          some (loaded, none) ∧
      loaded.Represents lists := by
  intro path
  have saves : (nlStep onePage path { file := none }
      (appendRule 1, { wish := 0, save := stopAfter 1 })).any (fun state =>
        (saveRuleFile (stopAfter 1) path state.tables.snapshotRules state.file).2 = none) =
          true := by
    decide +kernel
  cases taken : nlStep onePage path { file := none }
      (appendRule 1, { wish := 0, save := stopAfter 1 }) with
  | none =>
    rw [taken] at saves
    cases saves
  | some state =>
    rw [taken] at saves
    have configured : handleConf true 0 (List.replicate 256 0) {} none = some ({}, []) := rfl
    have run : Run (nlStep onePage path) (fun _ _ => True) { file := none }
        [(appendRule 1, { wish := 0, save := stopAfter 1 })] state :=
      .single trivial taken
    obtain ⟨lists, loaded, reloaded⟩ :=
      @rules_reloaded _ _ _ _ _ _ _ _ configured _ _ _ run (stopAfter 1)
        (Prod.ext rfl (of_decide_eq_true saves)) ⟨id, fun _ => false, fun _ => false⟩
        ⟨fun _ => rfl, fun _ => rfl⟩
    exact ⟨state, lists, loaded, rfl, reloaded⟩

end Reachable

section Truth

/-- There is one reply. A success says that the change was made and saved, a failure that the rules
are as before. -/
def Truthful (kmalloc : Kmalloc) (path : Bytes) (lists : RuleLists) (opts : CmdOpts)
    (answers : NlAnswers) (after : NlState) (replies : List Reply) : Prop :=
  replies = [.success] ∧ (∃ kind, opts.command.kind opts.number = some kind ∧
      ((answers.commandOf opts kind).specify kmalloc lists).2 = none) ∧
      after.tables.Represents (opts.change kmalloc answers lists) ∧ path ≠ [] ∧
      after.file = some { records := allRecords (opts.change kmalloc answers lists) } ∨
    replies = [.failure] ∧ after.tables.Represents lists

/-- The action exists, there is memory for the rule and the reply, and a change that is made can be
saved or is none. -/
def Answerable (kmalloc : Kmalloc) (path : Bytes) (lists : RuleLists) (file : Option RuleFile)
    (opts : CmdOpts) (answers : NlAnswers) : Prop :=
  (opts.command.adds = true → 0 ≤ opts.action ∧ opts.action < 6) ∧
    answers.kzallocFails = false ∧ answers.replyFails = false ∧
    ∀ kind, opts.command.kind opts.number = some kind →
      ((answers.commandOf opts kind).specify kmalloc lists).2 = none →
        let changed := opts.change kmalloc answers lists
        let saved := saveRuleFile answers.save path changed file
        path ≠ [] ∧ saved.2 = none ∨ saved.2 ≠ none ∧ changed = lists

theorem saved_file {saving : SaveAnswers} (configured : path ≠ [])
    (saved : (saveRuleFile saving path lists file).2 = none) :
    (saveRuleFile saving path lists file).1 = some { records := allRecords lists } := by
  obtain ⟨-, isWhole⟩ := @saveChains_wrote saving lists allChains {}
  rw [saveRuleFile, if_neg configured] at saved ⊢
  cases opened : saving.opens with
  | false => simp [opened] at saved
  | true =>
    simp only [opened, Bool.not_true, Bool.false_eq_true, if_false] at saved ⊢
    exact congrArg some (isWhole saved)

theorem truthful_iff_of_made {kind : CommandKind}
    (inRange : opts.command.adds = true → 0 ≤ opts.action ∧ opts.action < 6)
    (memory : answers.kzallocFails = false) (delivered : answers.replyFails = false)
    (isKind : opts.command.kind opts.number = some kind)
    (made : ((answers.commandOf opts kind).specify kmalloc lists).2 = none)
    (represents : tables.Represents (opts.change kmalloc answers lists)) :
    let saved := saveRuleFile answers.save path (opts.change kmalloc answers lists) file
    Truthful kmalloc path lists opts answers { tables, file := saved.1 }
        [if saved.2 = none then .success else .failure] ↔
      Answerable kmalloc path lists file opts answers := by
  intro saved
  by_cases isSaved : saved.2 = none
  · rw [if_pos isSaved]
    constructor
    · rintro (⟨-, -, -, configured, -⟩ | ⟨wrong, -⟩)
      · exact ⟨inRange, memory, delivered, fun _ _ _ => .inl ⟨configured, isSaved⟩⟩
      · cases wrong
    · intro answerable
      obtain ⟨configured, -⟩ := (answerable.2.2.2 kind isKind made).resolve_right
        fun failed => failed.1 isSaved
      exact .inl ⟨rfl, ⟨kind, isKind, made⟩, represents, configured, saved_file configured isSaved⟩
  · rw [if_neg isSaved]
    constructor
    · rintro (⟨wrong, -⟩ | ⟨-, isOld⟩)
      · cases wrong
      · exact ⟨inRange, memory, delivered, fun _ _ _ => .inr ⟨isSaved, represents.unique isOld⟩⟩
    · intro answerable
      obtain ⟨-, unchanged⟩ := (answerable.2.2.2 kind isKind made).resolve_left
        fun works => isSaved works.2
      exact .inr ⟨rfl, unchanged ▸ represents⟩

/-- In every state that commands lead to, a command other than a list that works is answered with
the truth under these conditions only. -/
theorem reply_truthful_iff {file : Option RuleFile} {events : List (CmdOpts × NlAnswers)}
    (run : Run (nlStep kmalloc path) (fun _ _ => True) { file } events state)
    (notListed : opts.command = .list →
      ∀ tables, opts.perform kmalloc state.tables answers ≠ some (tables, none)) :
    ∃ lists after replies, state.tables.Represents lists ∧
      nlDoAction kmalloc path state opts answers = some (after, replies) ∧
      (Truthful kmalloc path lists opts answers after replies ↔
        Answerable kmalloc path lists state.file opts answers) := by
  obtain ⟨cells, holds, -⟩ := ready_of_run run
  obtain ⟨tables, error, final, performed, holdsAfter, isFinal, isError, noKind⟩ :=
    holds.perform opts answers
  have silent : ∀ after, ¬Truthful kmalloc path (listsOf cells) opts answers after [] := by
    rintro after (⟨none, -⟩ | ⟨none, -⟩) <;> cases none
  by_cases refused : opts.command.adds = true ∧ ¬(0 ≤ opts.action ∧ opts.action < 6)
  · refine ⟨_, state, [], holds.represents, by rw [nlDoAction, if_pos refused], ?_⟩
    exact iff_of_false (silent state) fun answerable => refused.2 (answerable.1 refused.1)
  cases memory : answers.kzallocFails with
  | true =>
    refine ⟨_, state, [], holds.represents, ?_, ?_⟩
    · rw [nlDoAction, if_neg refused, if_pos memory]
    · refine iff_of_false (silent state) fun answerable => ?_
      exact Bool.false_ne_true (answerable.2.1.symm.trans memory)
  | false =>
  have notList : ¬(opts.command = .list ∧ error = none) := by
    rintro ⟨isList, rfl⟩
    exact notListed isList tables performed
  have represents := holdsAfter.represents
  rw [isFinal] at represents
  have isSnapshot := snapshotRules_of_represents represents
  have result := @nlDoAction_of_performed _ path _ _ _ _ _ refused memory performed
  rw [if_neg notList, isSnapshot] at result
  have inRange : opts.command.adds = true → 0 ≤ opts.action ∧ opts.action < 6 :=
    fun adds => not_not.mp fun outside => refused ⟨adds, outside⟩
  cases delivered : answers.replyFails with
  | true =>
    rw [delivered] at result
    refine ⟨_, _, _, holds.represents, result, iff_of_false (silent _) fun answerable => ?_⟩
    exact Bool.false_ne_true (answerable.2.2.1.symm.trans delivered)
  | false =>
    rw [delivered] at result
    refine ⟨_, _, _, holds.represents, result, ?_⟩
    simp only [Bool.false_eq_true, if_false]
    by_cases worked : error = none
    · subst worked
      obtain ⟨kind, isKind⟩ : ∃ kind, opts.command.kind opts.number = some kind := by
        rw [← isSome_iff_exists, isSome_iff_ne_none]
        exact fun none => noKind none (fun isList => notList ⟨isList, rfl⟩) rfl
      simp only [if_true, true_and]
      exact truthful_iff_of_made inRange memory delivered isKind (isError kind isKind).symm
        represents
    · have unchanged : opts.change kmalloc answers (listsOf cells) = listsOf cells := by
        unfold CmdOpts.change
        cases isKind : opts.command.kind opts.number with
        | none => rfl
        | some kind => exact specify_eq_of_error (isError kind isKind ▸ worked)
      simp only [worked, if_false, false_and]
      refine iff_of_true (.inr ⟨rfl, unchanged ▸ represents⟩) ⟨inRange, memory, delivered, ?_⟩
      exact fun kind isKind succeeded => absurd ((isError kind isKind).trans succeeded) worked

/-- A first rule that is appended and saved. -/
theorem append_answered :
    ∃ lists after replies, RuleTables.Represents {} lists ∧
      nlDoAction onePage [47] { file := none } (appendRule 1) { wish := 0, save := stopAfter 1 } =
        some (after, replies) ∧
      (Truthful onePage [47] lists (appendRule 1) { wish := 0, save := stopAfter 1 } after replies ↔
        Answerable onePage [47] lists none (appendRule 1) { wish := 0, save := stopAfter 1 }) :=
  @reply_truthful_iff onePage [47] { file := none } (appendRule 1)
    { wish := 0, save := stopAfter 1 } none [] .nil (fun isList => absurd isList (by decide))

/-- A rule stays in the tables though it is not saved and the reply is a failure. An action that
does not exist is not answered. -/
theorem failure_after_change :
    (nlDoAction onePage [47] { file := none } (appendRule 1)
      { wish := 0, save := stopAfter 0 }).map (fun done =>
        (done.1.tables.snapshotRules 0, done.2)) =
      some ([(appendRule 1).rule], [.failure]) ∧
    (nlDoAction onePage [47] { file := none } (appendRule 6)
      { wish := 0, save := stopAfter 1 }).map Prod.snd = some [] := by
  decide +kernel

end Truth

end IotProxy.Sipfw

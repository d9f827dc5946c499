import IotProxy.Myring.QueueTickets

/-!
# Producers and consumers of the bounded queue

A thread that has claimed a ticket owns the cell of the ticket until it publishes or releases it.
What a thread relies on at its next access (`Knows`) is brought about by its own accesses, and kept
by the others, because no two threads hold the same ticket (`Valid`).
-/

namespace IotProxy.Myring.MpmcBoundedQueue

open EventSystem Function List Option

variable {Value : Type*} {config : QueueConfig} {queue : MpmcBoundedQueue Value} {pos : ℕ}
  {value : Value}

section Threads

def Knows (config : QueueConfig) (queue : MpmcBoundedQueue Value) : Point Value → Prop
  | .loadPushSequence _ pos => pos ≤ queue.enqueuePos
  | .claimPush _ pos => queue.Released config pos
  | .construct value pos =>
    pos < queue.enqueuePos ∧ queue.values[pos]? = some value ∧ pos ∉ queue.written
  | .publish pos => pos ∈ queue.written ∧ pos ∉ queue.published
  | .loadPopSequence pos => pos ≤ queue.dequeuePos
  | .claimPop pos => pos ∈ queue.published
  | .take pos => pos < queue.dequeuePos ∧ ¬ queue.Taken pos
  | .release pos value => (pos, value) ∈ queue.taken ∧ pos ∉ queue.removed
  | .idle | .loadEnqueuePos _ | .pushed _ | .loadDequeuePos | .popped _ => True

/-- What an access of a thread at the point `mine` does to the history: it only adds to it, and only
for the ticket that the thread holds. -/
structure Grows (mine : Point Value) (queue after : MpmcBoundedQueue Value) : Prop where
  enqueuePos : queue.enqueuePos ≤ after.enqueuePos
  dequeuePos : queue.dequeuePos ≤ after.dequeuePos
  values : ∀ (ticket : ℕ) (value : Value), queue.values[ticket]? = some value →
    after.values[ticket]? = some value
  published : ∀ ticket ∈ queue.published, ticket ∈ after.published
  taken : ∀ entry ∈ queue.taken, entry ∈ after.taken
  removed : ∀ ticket ∈ queue.removed, ticket ∈ after.removed
  written_iff : ∀ ticket, mine.producing ≠ some ticket →
    (ticket ∈ after.written ↔ ticket ∈ queue.written)
  published_iff : ∀ ticket, mine.producing ≠ some ticket →
    (ticket ∈ after.published ↔ ticket ∈ queue.published)
  taken_iff : ∀ ticket, mine.consuming ≠ some ticket → (after.Taken ticket ↔ queue.Taken ticket)
  removed_iff : ∀ ticket, mine.consuming ≠ some ticket →
    (ticket ∈ after.removed ↔ ticket ∈ queue.removed)

structure Moves (config : QueueConfig) (queue : MpmcBoundedQueue Value) (mine : Point Value)
    (after : MpmcBoundedQueue Value) (next : Point Value) : Prop where
  tickets : Tickets config after
  knows : Knows config after next
  grows : Grows mine queue after
  producing : ∀ pos, next.producing = some pos →
    mine.producing = some pos ∨ pos = queue.enqueuePos
  consuming : ∀ pos, next.consuming = some pos →
    mine.consuming = some pos ∨ pos = queue.dequeuePos

variable {after : MpmcBoundedQueue Value} {mine next point : Point Value} {spurious : Bool}

theorem Grows.refl : Grows mine queue queue :=
  ⟨le_rfl, le_rfl, fun _ _ => id, fun _ => id, fun _ => id, fun _ => id, fun _ _ => Iff.rfl,
    fun _ _ => Iff.rfl, fun _ _ => Iff.rfl, fun _ _ => Iff.rfl⟩

theorem Knows.of_grows (knows : Knows config queue point) (grows : Grows mine queue after)
    (producing : ∀ pos, point.producing = some pos → mine.producing ≠ some pos)
    (consuming : ∀ pos, point.consuming = some pos → mine.consuming ≠ some pos) :
    Knows config after point := by
  cases point with
  | loadPushSequence value pos => exact le_trans knows grows.enqueuePos
  | claimPush value pos => exact fun large => grows.removed _ (knows large)
  | construct value pos =>
    refine ⟨knows.1.trans_le grows.enqueuePos, grows.values _ _ knows.2.1, ?_⟩
    rw [grows.written_iff pos (producing pos rfl)]
    exact knows.2.2
  | publish pos =>
    rw [Knows, grows.written_iff pos (producing pos rfl),
      grows.published_iff pos (producing pos rfl)]
    exact knows
  | loadPopSequence pos => exact le_trans knows grows.dequeuePos
  | claimPop pos => exact grows.published pos knows
  | take pos =>
    rw [Knows, grows.taken_iff pos (consuming pos rfl)]
    exact ⟨knows.1.trans_le grows.dequeuePos, knows.2⟩
  | release pos value =>
    rw [Knows, grows.removed_iff pos (consuming pos rfl)]
    exact ⟨grows.taken _ knows.1, knows.2⟩
  | idle => trivial
  | loadEnqueuePos value => trivial
  | pushed result => trivial
  | loadDequeuePos => trivial
  | popped result => trivial

theorem Knows.producing_lt (tickets : Tickets config queue) (knows : Knows config queue point)
    (producing : point.producing = some pos) : pos < queue.enqueuePos := by
  cases point <;> cases producing
  · exact knows.1
  · exact tickets.written_lt pos knows.1

theorem Knows.consuming_lt (tickets : Tickets config queue) (knows : Knows config queue point)
    (consuming : point.consuming = some pos) : pos < queue.dequeuePos := by
  cases point <;> cases consuming
  · exact knows.1
  · exact tickets.taken_claimed pos (mem_map_of_mem knows.1)

theorem Moves.stay (tickets : Tickets config queue) (knows : Knows config queue next)
    (producing : next.producing = none) (consuming : next.consuming = none) :
    Moves config queue mine queue next where
  tickets := tickets
  knows := knows
  grows := .refl
  producing := by simp [producing]
  consuming := by simp [consuming]

section Moves

theorem mem_append_singleton_of_ne {history : List ℕ} {ticket : ℕ}
    (different : some pos ≠ some ticket) : ticket ∈ history ++ [pos] ↔ ticket ∈ history := by
  rw [mem_append, mem_singleton, or_iff_left]
  exact fun equal => different (congrArg some equal.symm)

theorem Moves.enqueue (tickets : Tickets config queue)
    (knows : Knows config queue (.claimPush value queue.enqueuePos))
    (few : (queue.enqueue value queue.enqueuePos).values.length < 2 ^ 63) :
    Moves config queue (.claimPush value queue.enqueuePos) (queue.enqueue value queue.enqueuePos)
      (.construct value queue.enqueuePos) := by
  have fits : queue.values.length + 1 < 2 ^ 63 := by
    simpa [MpmcBoundedQueue.enqueue] using few
  have advanced : (queue.enqueue value queue.enqueuePos).enqueuePos = queue.enqueuePos + 1 := by
    apply Counter.wrap_of_lt
    rw [tickets.enqueued]
    omega
  refine ⟨tickets.enqueue rfl knows fits, ⟨?_, ?_, fun written => ?_⟩, { Grows.refl with
    enqueuePos := ?_, values := fun ticket held => ?_ }, ?_, by rintro _ ⟨⟩⟩
  · rw [advanced]
    exact Nat.lt_succ_self _
  · rw [tickets.enqueued]
    exact List.getElem?_concat_length
  · exact absurd (tickets.written_lt _ written) (lt_irrefl _)
  · rw [advanced]
    exact Nat.le_succ _
  · intro known
    exact (List.getElem?_append_left (List.getElem?_eq_some_iff.mp known).1).trans known
  · rintro pos ⟨⟩
    exact .inr rfl

theorem Moves.construct (tickets : Tickets config queue)
    (knows : Knows config queue (.construct value pos)) :
    Moves config queue (.construct value pos) (queue.construct config value pos)
      (.publish pos) := by
  refine ⟨tickets.construct knows.1 knows.2.1 knows.2.2, ⟨?_, ?_⟩, { Grows.refl with
    written_iff := fun ticket different => mem_append_singleton_of_ne different }, ?_, by rintro _ ⟨⟩⟩
  · exact mem_append_right _ (mem_singleton_self _)
  · exact fun published => knows.2.2 (tickets.published_written pos published)
  · rintro ticket ⟨⟩
    exact .inl rfl

theorem Moves.publish (tickets : Tickets config queue) (knows : Knows config queue (.publish pos))
    (few : queue.values.length < 2 ^ 63) :
    Moves config queue (.publish pos) (queue.publish config pos) (.pushed true) := by
  refine ⟨tickets.publish knows.1 knows.2 few, trivial, { Grows.refl with
    published := fun ticket member => mem_append_left _ member
    published_iff := fun ticket different => mem_append_singleton_of_ne different }, by rintro _ ⟨⟩, by rintro _ ⟨⟩⟩

theorem Moves.dequeue (tickets : Tickets config queue)
    (knows : Knows config queue (.claimPop queue.dequeuePos)) (few : queue.values.length < 2 ^ 63) :
    Moves config queue (.claimPop queue.dequeuePos) (queue.dequeue queue.dequeuePos)
      (.take queue.dequeuePos) := by
  have advanced : (queue.dequeue queue.dequeuePos).dequeuePos = queue.dequeuePos + 1 := by
    apply Counter.wrap_of_lt
    have small := tickets.published_lt knows
    rw [tickets.enqueued] at small
    omega
  refine ⟨tickets.dequeue rfl knows few, ⟨?_, fun taken => ?_⟩, { Grows.refl with
    dequeuePos := ?_ }, by rintro _ ⟨⟩, ?_⟩
  · rw [advanced]
    exact Nat.lt_succ_self _
  · exact absurd (tickets.taken_claimed _ taken) (lt_irrefl _)
  · rw [advanced]
    exact Nat.le_succ _
  · rintro pos ⟨⟩
    exact .inr rfl

theorem Moves.take (tickets : Tickets config queue) (knows : Knows config queue (.take pos))
    (held : (queue.cell config pos).storage = some value) :
    Moves config queue (.take pos) (queue.take config pos value) (.release pos value) := by
  have taken_map : (queue.take config pos value).taken.map Prod.fst =
      queue.taken.map Prod.fst ++ [pos] :=
    map_append
  refine ⟨tickets.take knows.1 knows.2 held, ⟨?_, fun removed => ?_⟩, { Grows.refl with
    taken := fun entry member => mem_append_left _ member
    taken_iff := fun ticket different => ?_ }, by rintro _ ⟨⟩, ?_⟩
  · exact mem_append_right _ (mem_singleton_self _)
  · exact knows.2 (tickets.removed_taken pos removed)
  · rw [Taken, taken_map]
    exact mem_append_singleton_of_ne different
  · rintro ticket ⟨⟩
    exact .inl rfl

theorem Moves.release (tickets : Tickets config queue)
    (knows : Knows config queue (.release pos value)) (few : queue.values.length < 2 ^ 63) :
    Moves config queue (.release pos value) (queue.release config pos) (.popped (some value)) := by
  refine ⟨tickets.release (mem_map_of_mem knows.1) knows.2 few, trivial, { Grows.refl with
    removed := fun ticket member => mem_append_left _ member
    removed_iff := fun ticket different => mem_append_singleton_of_ne different }, by rintro _ ⟨⟩, by rintro _ ⟨⟩⟩

theorem moves_of_accesses (tickets : Tickets config queue) (knows : Knows config queue mine)
    (few : after.values.length < 2 ^ 63) (accesses : Accesses config queue mine after next) :
    Moves config queue mine after next := by
  cases accesses with
  | loadEnqueuePos => exact .stay tickets le_rfl rfl rfl
  | pushFree free => exact .stay tickets (tickets.released_of_sequence free) rfl rfl
  | pushFull => exact .stay tickets trivial rfl rfl
  | pushStale => exact .stay tickets trivial rfl rfl
  | enqueue => exact .enqueue tickets knows few
  | pushMissed => exact .stay tickets le_rfl rfl rfl
  | construct => exact .construct tickets knows
  | publish => exact .publish tickets knows few
  | loadDequeuePos => exact .stay tickets le_rfl rfl rfl
  | @popReady pos ready =>
    have small : pos ≤ queue.values.length := by
      rw [← tickets.enqueued]
      exact le_trans knows tickets.dequeuePos_le
    rw [Counter.wrap_of_lt (by omega)] at ready
    exact .stay tickets (tickets.published_of_sequence ready) rfl rfl
  | popEmpty => exact .stay tickets trivial rfl rfl
  | popStale => exact .stay tickets trivial rfl rfl
  | dequeue => exact .dequeue tickets knows few
  | popMissed => exact .stay tickets le_rfl rfl rfl
  | take held => exact .take tickets knows held
  | release => exact .release tickets knows few

theorem Accesses.values_le (accesses : Accesses config queue mine after next) :
    queue.values.length ≤ after.values.length := by
  cases accesses with
  | enqueue =>
    simp only [MpmcBoundedQueue.enqueue, length_append]
    exact Nat.le_add_right _ _
  | _ => exact le_rfl

end Moves

end Threads

section Runs

/-- The invariant of the queue and its threads: two threads do not hold the same ticket. -/
structure Valid (config : QueueConfig) (system : System Value) : Prop where
  tickets : Tickets config system.queue
  knows : ∀ thread, Knows config system.queue (system.threads thread)
  producers : ∀ first second pos, (system.threads first).producing = some pos →
    (system.threads second).producing = some pos → first = second
  consumers : ∀ first second pos, (system.threads first).consuming = some pos →
    (system.threads second).consuming = some pos → first = second

variable {system after : System Value} {event : Event Value} {events : List (Event Value)}

theorem initial_valid : Valid config ({} : System Value) where
  tickets := create_tickets
  knows := fun _ => trivial
  producers := by rintro _ _ _ ⟨⟩
  consumers := by rintro _ _ _ ⟨⟩

theorem unique_of_update {threads : ℕ → Point Value} {holds : Point Value → Option ℕ} {limit : ℕ}
    {thread : ℕ} {next : Point Value}
    (below : ∀ owner pos, holds (threads owner) = some pos → pos < limit)
    (unique : ∀ first second pos, holds (threads first) = some pos →
      holds (threads second) = some pos → first = second)
    (fresh : ∀ pos, holds next = some pos → holds (threads thread) = some pos ∨ pos = limit)
    (first second pos : ℕ) (one : holds (update threads thread next first) = some pos)
    (two : holds (update threads thread next second) = some pos) : first = second := by
  have before {owner : ℕ} (held : holds (update threads thread next owner) = some pos) :
      holds (threads owner) = some pos ∨ owner = thread ∧ pos = limit := by
    by_cases moved : owner = thread
    · subst moved
      rw [update_self] at held
      exact (fresh pos held).imp_right fun last => ⟨rfl, last⟩
    · rw [update_of_ne moved] at held
      exact .inl held
  rcases before one with held | ⟨rfl, last⟩
  · rcases before two with also | ⟨_, last⟩
    · exact unique first second pos held also
    · exact absurd (below first pos held) (by omega)
  · rcases before two with held | ⟨rfl, _⟩
    · exact absurd (below second pos held) (by omega)
    · rfl

theorem Valid.moves (valid : Valid config system) {thread : ℕ} {queue : MpmcBoundedQueue Value}
    {next : Point Value}
    (moves : Moves config system.queue (system.threads thread) queue next) :
    Valid config { system.goto thread next with queue := queue } where
  tickets := moves.tickets
  knows := by
    intro other
    change Knows config queue (update system.threads thread next other)
    by_cases moved : other = thread
    · rw [moved, update_self]
      exact moves.knows
    · rw [update_of_ne moved]
      apply (valid.knows other).of_grows moves.grows
      · exact fun pos mine theirs => moved (valid.producers other thread pos mine theirs)
      · exact fun pos mine theirs => moved (valid.consumers other thread pos mine theirs)
  producers := unique_of_update
    (fun owner _ => (valid.knows owner).producing_lt valid.tickets) valid.producers moves.producing
  consumers := unique_of_update
    (fun owner _ => (valid.knows owner).consuming_lt valid.tickets) valid.consumers moves.consuming

theorem Valid.step (valid : Valid config system) (few : after.queue.values.length < 2 ^ 63)
    (taken : system.step config event = some after) : Valid config after := by
  cases event with
  | tryPush thread value =>
    rcases ite_none_right_eq_some.mp taken with ⟨_, same⟩
    cases same
    exact valid.moves (.stay valid.tickets trivial rfl rfl)
  | tryPop thread =>
    rcases ite_none_right_eq_some.mp taken with ⟨_, same⟩
    cases same
    exact valid.moves (.stay valid.tickets trivial rfl rfl)
  | access thread spurious =>
    rcases map_eq_some_iff.mp taken with ⟨moved, accessed, same⟩
    cases same
    apply valid.moves
    exact moves_of_accesses valid.tickets (valid.knows thread) few (accesses_of_access accessed)

theorem step_values_le (taken : system.step config event = some after) :
    system.queue.values.length ≤ after.queue.values.length := by
  cases event with
  | tryPush thread value =>
    rcases ite_none_right_eq_some.mp taken with ⟨_, same⟩
    cases same
    exact le_rfl
  | tryPop thread =>
    rcases ite_none_right_eq_some.mp taken with ⟨_, same⟩
    cases same
    exact le_rfl
  | access thread spurious =>
    rcases map_eq_some_iff.mp taken with ⟨moved, accessed, same⟩
    cases same
    exact (accesses_of_access accessed).values_le

theorem Valid.run {condition : System Value → Event Value → Prop} (valid : Valid config system)
    (run : Run (System.step config) condition system events after) :
    after.queue.values.length < 2 ^ 63 → Valid config after := by
  apply run.invariant
  · exact fun _ => valid
  · intro before after event _ taken earlier few
    exact (earlier ((step_values_le taken).trans_lt few)).step few taken

end Runs

section Calls

variable {system after : System Value} {thread : ℕ} {point : Point Value}

theorem accesses_of_step (taken : system.step config (.access thread spurious) = some after)
    (reached : after.threads thread = point) :
    Accesses config system.queue (system.threads thread) after.queue point := by
  rcases map_eq_some_iff.mp taken with ⟨moved, accessed, same⟩
  subst same
  rw [← reached]
  change Accesses config system.queue _ moved.1 (update system.threads thread moved.2 thread)
  rw [update_self]
  exact accesses_of_access accessed

theorem Valid.push_fails (valid : Valid config system)
    (few : system.queue.values.length + config.capacity ≤ 2 ^ 63)
    (taken : system.step config (.access thread spurious) = some after)
    (failed : after.threads thread = .pushed false) :
    ¬ system.queue.Released config system.queue.enqueuePos := by
  have knows := valid.knows thread
  have accesses := accesses_of_step taken failed
  generalize system.threads thread = mine, after.queue = reached at knows accesses
  cases accesses with
  | pushFull different behind =>
    have blocked := valid.tickets.not_released_of_before few behind
    have last := valid.tickets.enqueuePos_le_of_not_released blocked
    rwa [le_antisymm knows last] at blocked

theorem Valid.pop_fails (valid : Valid config system) (few : system.queue.values.length < 2 ^ 63)
    (taken : system.step config (.access thread spurious) = some after)
    (failed : after.threads thread = .popped none) :
    system.queue.dequeuePos ∉ system.queue.published := by
  have knows := valid.knows thread
  have accesses := accesses_of_step taken failed
  generalize system.threads thread = mine, after.queue = reached at knows accesses
  cases accesses with
  | @popEmpty pos different behind =>
    have small : pos ≤ system.queue.values.length := by
      rw [← valid.tickets.enqueued]
      exact le_trans knows valid.tickets.dequeuePos_le
    rw [Counter.wrap_of_lt (by omega)] at different behind
    have waiting := valid.tickets.not_published_of_before few different behind
    have last : system.queue.dequeuePos ≤ pos :=
      Nat.le_of_not_lt fun claimed => waiting (valid.tickets.claimed_published pos claimed)
    rwa [le_antisymm knows last] at waiting

theorem Valid.pop_returns (valid : Valid config system)
    (taken : system.step config (.access thread spurious) = some after)
    (returned : after.threads thread = .popped (some value)) :
    ∃ ticket, (ticket, value) ∈ system.queue.taken ∧ ticket ∉ system.queue.removed ∧
      ticket ∈ after.queue.removed := by
  have knows := valid.knows thread
  have accesses := accesses_of_step taken returned
  generalize system.threads thread = mine, after.queue = reached at knows accesses ⊢
  cases accesses with
  | @release pos =>
    exact ⟨pos, knows.1, knows.2, mem_append_right _ (mem_singleton_self _)⟩

/-- In every run the values are taken once, by the tickets in order, from the cells they were put into,
and a call fails only if its cell was not ready. -/
theorem correct_of_run {events : List (Event Value)}
    (run : Run (System.step config) (fun _ _ => True) ({} : System Value) events system)
    (few : system.queue.values.length < 2 ^ 63) :
    (system.queue.taken.map Prod.fst).Nodup ∧
      system.queue.claims = List.range system.queue.claims.length ∧
      (∀ ticket value, (ticket, value) ∈ system.queue.taken →
        ticket ∈ system.queue.claims ∧ system.queue.values[ticket]? = some value) ∧
      (∀ ticket ∈ system.queue.written, ¬ system.queue.Taken ticket → ∃ value,
        system.queue.values[ticket]? = some value ∧
          (system.queue.cell config ticket).storage = some value) ∧
      (∀ thread value ticket, system.threads thread = .construct value ticket →
        (system.queue.cell config ticket).storage = none) ∧
      ∀ thread spurious after, system.step config (.access thread spurious) = some after →
        (∀ value, after.threads thread = .popped (some value) →
          ∃ ticket, (ticket, value) ∈ system.queue.taken ∧ ticket ∉ system.queue.removed ∧
            ticket ∈ after.queue.removed) ∧
        (system.queue.values.length + config.capacity ≤ 2 ^ 63 →
          after.threads thread = .pushed false →
          config.capacity ≤ system.queue.enqueuePos ∧
            system.queue.enqueuePos - config.capacity ∉ system.queue.removed) ∧
        (after.threads thread = .popped none →
          system.queue.dequeuePos ∉ system.queue.published) := by
  have valid := initial_valid.run run few
  have tickets := valid.tickets
  refine ⟨tickets.taken_once, ?_, ?_, ?_, ?_, ?_⟩
  · rw [tickets.claimed, length_range]
  · intro ticket value taken
    refine ⟨?_, tickets.taken_value _ taken⟩
    rw [tickets.claimed, mem_range]
    exact tickets.taken_claimed ticket (mem_map_of_mem taken)
  · intro ticket written untaken
    have small := tickets.written_lt ticket written
    have held := (tickets.cells ticket (tickets.current_of_lt small untaken)).full written untaken
    rw [tickets.enqueued] at small
    exact ⟨_, List.getElem?_eq_getElem small, held.trans (List.getElem?_eq_getElem small)⟩
  · intro thread value ticket constructs
    have knows := valid.knows thread
    rw [constructs] at knows
    have untaken : ¬ system.queue.Taken ticket := fun taken =>
      knows.2.2 (tickets.published_written ticket (tickets.taken_published taken))
    exact (tickets.cells ticket (tickets.current_of_lt knows.1 untaken)).empty (.inl knows.2.2)
  · intro thread spurious after taken
    refine ⟨fun value => valid.pop_returns taken, fun room failed => ?_, valid.pop_fails few taken⟩
    have blocked := valid.push_fails room taken failed
    rwa [Released, Classical.not_imp] at blocked

def twoCells : QueueConfig where
  exponent := 1
  atLeastTwo := le_rfl
  halfRange := by decide

def pushEvents (thread : ℕ) (value : Value) : List (Event Value) :=
  .tryPush thread value :: List.replicate 5 (.access thread false)

def givesUp (system : System ℕ) : Bool :=
  (system.step twoCells (.access 0 false)).any fun after => after.threads 0 = .pushed false

/-- Two values fill the queue, and a third push fails. -/
theorem push_fails_on_full_queue :
    ∃ system, Run (System.step twoCells) (fun _ _ => True) ({} : System ℕ)
        (pushEvents 0 7 ++ pushEvents 1 8 ++ [.tryPush 0 9, .access 0 false]) system ∧
      system.queue.enqueuePos - twoCells.capacity ∉ system.queue.removed := by
  apply Run.exists_of_execute fun system => system.queue.values.length = 2 && givesUp system
  · decide +kernel
  · intro system run facts
    rw [Bool.and_eq_true, decide_eq_true_eq, givesUp, Option.any_eq_true] at facts
    rcases facts with ⟨two, after, taken, full⟩
    have correct := correct_of_run run (by omega)
    have fails := (correct.2.2.2.2.2 0 false after taken).2.1
    refine (fails ?_ (of_decide_eq_true full)).2
    rw [two]
    decide

end Calls

section Stale

/-- The ticket that the next push gets has its cell. -/
def NotFull (config : QueueConfig) (system : System Value) : Prop :=
  system.queue.Released config system.queue.enqueuePos

/-- After `count` pushes and pops of thread `1`, thread `0` is still at its first look at cell `0`. -/
structure Rests (config : QueueConfig) (count : ℕ) (system : System Unit) : Prop where
  valid : Valid config system
  enqueuePos : system.queue.enqueuePos = count
  dequeuePos : system.queue.dequeuePos = count
  removed : ∀ ticket < count, ticket ∈ system.queue.removed
  stalls : system.threads 0 = .loadPushSequence () 0
  free : (system.threads 1).isFree = true

def System.visit (system : System Value) (queue : MpmcBoundedQueue Value) (point : Point Value) :
    System Value :=
  { system.goto 1 point with queue := queue }

variable {system : System Value} {point next : Point Value} {after : MpmcBoundedQueue Value}

theorem step_visit (accessed : queue.access config false point = some (after, next)) :
    (system.visit queue point).step config (.access 1 false) = some (system.visit after next) := by
  simp [System.step, System.visit, System.goto, accessed]

theorem run_visit {events : List (Event Value)} {start : System Value}
    (run : Run (System.step config) (fun state _ => NotFull config state) start events
      (system.visit queue point))
    (room : queue.Released config queue.enqueuePos)
    (accessed : queue.access config false point = some (after, next)) :
    Run (System.step config) (fun state _ => NotFull config state) start
      (events ++ [.access 1 false]) (system.visit after next) :=
  .snoc run room (step_visit accessed)

def pushNext (config : QueueConfig) (queue : MpmcBoundedQueue Value) (value : Value) :
    MpmcBoundedQueue Value :=
  ((queue.enqueue value queue.enqueuePos).construct config value queue.enqueuePos).publish config
    queue.enqueuePos

def popNext (config : QueueConfig) (queue : MpmcBoundedQueue Value) (value : Value) :
    MpmcBoundedQueue Value :=
  ((queue.dequeue queue.dequeuePos).take config queue.dequeuePos value).release config
    queue.dequeuePos

theorem run_push (system : System Value) (value : Value)
    (isFree : (system.threads 1).isFree = true) (room : NotFull config system)
    (more : system.queue.Released config (Counter.wrap (system.queue.enqueuePos + 1)))
    (free : (system.queue.cell config system.queue.enqueuePos).sequence = system.queue.enqueuePos) :
    ∃ events, Run (System.step config) (fun state _ => NotFull config state) system events
      (system.visit (system.queue.pushNext config value) (.pushed true)) := by
  have called : Run (System.step config) (fun state _ => NotFull config state) system
      [.tryPush 1 value] (system.visit system.queue (.loadEnqueuePos value)) :=
    .single room (if_pos isFree)
  have loaded := run_visit called room rfl
  have compared := run_visit loaded room (if_pos free)
  have claimed := run_visit compared room (if_pos ⟨rfl, rfl⟩)
  have constructed := run_visit claimed more rfl
  exact ⟨_, run_visit constructed more rfl⟩

theorem run_pop (system : System Value) (value : Value)
    (isFree : (system.threads 1).isFree = true) (room : NotFull config system)
    (ready : (system.queue.cell config system.queue.dequeuePos).sequence =
      Counter.wrap (system.queue.dequeuePos + 1))
    (held : (system.queue.cell config system.queue.dequeuePos).storage = some value) :
    ∃ events, Run (System.step config) (fun state _ => NotFull config state) system events
      (system.visit (system.queue.popNext config value) (.popped (some value))) := by
  have called : Run (System.step config) (fun state _ => NotFull config state) system
      [.tryPop 1] (system.visit system.queue .loadDequeuePos) :=
    .single room (if_pos isFree)
  have loaded := run_visit called room rfl
  have compared := run_visit loaded room (if_pos ready)
  have claimed := run_visit compared room (if_pos ⟨rfl, rfl⟩)
  have taken := run_visit claimed room (map_eq_some_iff.mpr ⟨value, held, rfl⟩)
  exact ⟨_, run_visit taken room rfl⟩

theorem cell_pushNext (value : Value) :
    (queue.pushNext config value).cell config queue.enqueuePos =
      { sequence := Counter.wrap (queue.enqueuePos + 1), storage := some value } := by
  have constructed : ((queue.enqueue value queue.enqueuePos).construct config value
      queue.enqueuePos).cell config queue.enqueuePos = { queue.cell config queue.enqueuePos with
        storage := some value } :=
    cell_of_setCell rfl rfl
  refine (cell_of_setCell rfl rfl).trans ?_
  rw [constructed]

theorem Rests.round {count : ℕ} {system : System Unit} (rests : Rests config count system)
    (few : count + 1 < 2 ^ 63) :
    ∃ events after, Run (System.step config) (fun state _ => NotFull config state) system events
      after ∧ Rests config (count + 1) after := by
  rcases rests with ⟨valid, rfl, popPos, removed, stalls, isFree⟩
  have tickets := valid.tickets
  have two : 2 ≤ config.capacity := Nat.pow_le_pow_right Nat.two_pos config.atLeastTwo
  have released (ticket : ℕ) (reached : ticket ≤ system.queue.enqueuePos + 1) :
      system.queue.Released config ticket :=
    fun large => removed _ (by omega)
  have next : Counter.wrap (system.queue.enqueuePos + 1) = system.queue.enqueuePos + 1 :=
    Counter.wrap_of_lt (by omega)
  have current : system.queue.Current config system.queue.enqueuePos :=
    ⟨released _ (Nat.le_succ _), fun gone => lt_irrefl _ (tickets.removed_lt gone)⟩
  have free := (tickets.cells _ current).unpublished fun published =>
    lt_irrefl _ (tickets.published_lt published)
  have filled : (system.queue.pushNext config ()).cell config system.queue.dequeuePos =
      { sequence := Counter.wrap (system.queue.dequeuePos + 1), storage := some () } :=
    popPos ▸ cell_pushNext ()
  have room : (system.queue.pushNext config ()).Released config _ := released _ next.le
  rcases run_push system () isFree current.1 (released _ next.le) free with ⟨pushes, pushed⟩
  rcases run_pop (system.visit (system.queue.pushNext config ()) (.pushed true)) () rfl room
    (congrArg Cell.sequence filled) (congrArg Cell.storage filled) with ⟨pops, popped⟩
  have run := pushed.trans popped
  refine ⟨_, _, run, ⟨valid.run run ?_, next, ?_, ?_, stalls, rfl⟩⟩
  · change (system.queue.values ++ [()]).length < 2 ^ 63
    rwa [length_append, length_singleton, ← tickets.enqueued]
  · rw [← next, ← popPos]
    rfl
  · intro ticket small
    change ticket ∈ system.queue.removed ++ [system.queue.dequeuePos]
    rw [mem_append, mem_singleton, popPos]
    exact (Nat.lt_succ_iff_lt_or_eq.mp small).imp_left (removed ticket)

theorem exists_rests {count : ℕ} (few : count < 2 ^ 63) :
    ∃ events system, Run (System.step config) (fun state _ => NotFull config state)
      (({} : System Unit).goto 0 (.loadEnqueuePos ())) events system ∧
      Rests config count system := by
  induction count with
  | zero =>
    have empty : NotFull config (({} : System Unit).goto 0 (.loadEnqueuePos ())) :=
      fun large => absurd config.capacity_pos (Nat.not_lt.mpr large)
    have valid : Valid config (({} : System Unit).goto 0 (.loadEnqueuePos ())) :=
      initial_valid.moves (.stay create_tickets trivial rfl rfl)
    have run : Run (System.step config) (fun state _ => NotFull config state)
        (({} : System Unit).goto 0 (.loadEnqueuePos ())) [.access 0 false] _ :=
      .single empty rfl
    refine ⟨_, _, run, valid.run run (by decide), rfl, rfl, ?_, rfl, rfl⟩
    exact fun ticket small => absurd small (Nat.not_lt_zero _)
  | succ count ih =>
    rcases ih (Nat.lt_of_succ_lt few) with ⟨events, system, run, rests⟩
    rcases rests.round few with ⟨more, after, next, done⟩
    exact ⟨_, after, run.trans next, done⟩

theorem Rests.sequence_zero {count : ℕ} {system : System Unit} (rests : Rests config count system)
    (wrapped : count + config.capacity = 2 ^ 63 + 1) :
    (system.queue.cell config 0).sequence = 2 ^ 63 := by
  have tickets := rests.valid.tickets
  have same : SameCell config (2 ^ 63) 0 := by
    rw [SameCell, Nat.mod_eq_zero_of_dvd config.capacity_dvd, Nat.zero_mod]
  have two : 2 ≤ config.capacity := Nat.pow_le_pow_right Nat.two_pos config.atLeastTwo
  have behind {ticket : ℕ} (used : ticket ∈ system.queue.written) : ticket < count :=
    rests.enqueuePos ▸ tickets.written_lt ticket used
  have unpublished : 2 ^ 63 ∉ system.queue.published := fun published =>
    absurd (behind (tickets.published_written _ published)) (by omega)
  have current : system.queue.Current config (2 ^ 63) := by
    refine ⟨fun _ => rests.removed _ (by omega), fun removed => unpublished ?_⟩
    exact tickets.taken_published (tickets.removed_taken _ removed)
  rw [← same.cell_eq]
  exact (tickets.cells _ current).unpublished unpublished

def submissionQueue : QueueConfig where
  exponent := 12
  atLeastTwo := by decide
  halfRange := by decide

/-- A push fails although at every instant of the call the queue has room: the position it has loaded
is `2 ^ 63` behind the sequence number of its cell. -/
theorem push_fails_on_free_cell :
    ∃ begun events before after,
      ({} : System Unit).step submissionQueue (.tryPush 0 ()) = some begun ∧
      Run (System.step submissionQueue)
        (fun state _ => state.queue.Released submissionQueue state.queue.enqueuePos) begun events
        before ∧
      before.queue.Released submissionQueue before.queue.enqueuePos ∧
      before.step submissionQueue (.access 0 false) = some after ∧
      after.threads 0 = .pushed false ∧ after.queue.values.length < 2 ^ 63 := by
  have total : 2 ^ 63 - 4095 < 2 ^ 63 := by decide
  rcases exists_rests total with ⟨events, system, run, rests⟩
  have sequence : (system.queue.cell submissionQueue 0).sequence = 2 ^ 63 :=
    rests.sequence_zero (by decide)
  have behind : Counter.before (2 ^ 63) 0 = true := by decide
  refine ⟨_, events, system, { system.goto 0 (.pushed false) with queue := system.queue }, rfl, run,
    ?_, ?_, rfl, ?_⟩
  · exact fun large => rests.removed _ (by
      rw [← rests.enqueuePos]
      exact Nat.sub_lt (submissionQueue.capacity_pos.trans_le large) submissionQueue.capacity_pos)
  · simp only [System.step, rests.stalls, access, sequence, behind]
    rfl
  · change system.queue.values.length < 2 ^ 63
    rw [← rests.valid.tickets.enqueued, rests.enqueuePos]
    decide

end Stale

end IotProxy.Myring.MpmcBoundedQueue

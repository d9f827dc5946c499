import Mathlib.Tactic

/-!
# Watermarks over partitioned logs

A consumer of a partitioned log keeps a mark for every partition: the offset it reads next, or up to
which it has reported its work. `Below log mark Settled` is what such a mark promises: every message
under it is settled, whatever settled means for the consumer.
-/

namespace Watermark

universe u v

variable {Partition : Type u} {Message : Type v}

/-- Every message under the mark of its partition is settled. -/
def Below (log : Partition → ℕ → Option Message) (mark : Partition → ℕ)
    (Settled : Partition → ℕ → Message → Prop) : Prop :=
  ∀ ⦃partition offset message⦄, log partition offset = some message →
    offset < mark partition → Settled partition offset message

/-- `offset` holds the next message of the partition, reading from `position` on. -/
structure Next (log : Partition → ℕ → Option Message) (position : Partition → ℕ)
    (partition : Partition) (offset : ℕ) (message : Message) : Prop where
  reached : position partition ≤ offset
  skipped : ∀ earlier < offset, position partition ≤ earlier → log partition earlier = none
  present : log partition offset = some message

namespace Below

variable {log : Partition → ℕ → Option Message} {mark : Partition → ℕ}
  {Settled : Partition → ℕ → Message → Prop}

theorem zero : Below log (fun _ => 0) Settled := by
  intro partition offset message _ below
  exact absurd below (Nat.not_lt_zero offset)

theorem mono {Weaker : Partition → ℕ → Message → Prop} (promise : Below log mark Settled)
    (implied : ∀ {partition offset message}, Settled partition offset message →
      Weaker partition offset message) :
    Below log mark Weaker := by
  intro partition offset message present below
  exact implied (promise present below)

theorem of_forall {lower : Partition → ℕ}
    (each : ∀ partition, ∃ upper : Partition → ℕ,
      Below log upper Settled ∧ lower partition ≤ upper partition) :
    Below log lower Settled := by
  intro partition offset message present below
  rcases each partition with ⟨upper, promise, bounded⟩
  exact promise present (below.trans_le bounded)

variable [DecidableEq Partition]

theorem advance {partition : Partition} {offset : ℕ} {message : Message}
    (promise : Below log mark Settled) (next : Next log mark partition offset message)
    (settled : Settled partition offset message) :
    Below log (Function.update mark partition (offset + 1)) Settled := by
  intro other earlier found present below
  by_cases same : other = partition
  · subst same
    rw [Function.update_self] at below
    rcases Nat.lt_or_ge earlier (mark other) with under | atLeast
    · exact promise present under
    · rcases Nat.lt_or_eq_of_le (Nat.lt_succ_iff.mp below) with before | rfl
      · rw [next.skipped earlier before atLeast] at present
        cases present
      · rw [next.present] at present
        cases present
        exact settled
  · rw [Function.update_of_ne same] at below
    exact promise present below

end Below

end Watermark

import Mathlib.Tactic

/-!
# Length-prefixed frames

A frame is a header of fixed size, which announces the size of the payload, and the payload. With a
limit on the size of payloads, a sequence of symbols has one way to be read (`Splits`): as many
frames as it starts with, and a rest that does not start with a frame.
-/

structure Framing (α : Type*) where
  headerSize : ℕ
  headerSize_pos : 0 < headerSize
  payloadSize : List α → ℕ

namespace Framing

open List

variable {α : Type*} (framing : Framing α) (limit : ℕ)

def announced (symbols : List α) : ℕ :=
  framing.payloadSize (symbols.take framing.headerSize)

structure IsFrame (frame : List α) : Prop where
  length : frame.length = framing.headerSize + framing.announced frame
  within : framing.announced frame ≤ limit

/-- A complete header announces more than the limit. -/
structure Excessive (symbols : List α) : Prop where
  complete : framing.headerSize ≤ symbols.length
  exceeds : limit < framing.announced symbols

instance (frame : List α) : Decidable (framing.IsFrame limit frame) :=
  decidable_of_iff (frame.length = framing.headerSize + framing.announced frame ∧
      framing.announced frame ≤ limit)
    ⟨fun ⟨length, within⟩ => ⟨length, within⟩, fun frame => ⟨frame.length, frame.within⟩⟩

instance (symbols : List α) : Decidable (framing.Excessive limit symbols) :=
  decidable_of_iff (framing.headerSize ≤ symbols.length ∧ limit < framing.announced symbols)
    ⟨fun ⟨complete, exceeds⟩ => ⟨complete, exceeds⟩,
      fun excessive => ⟨excessive.complete, excessive.exceeds⟩⟩

/-- The sequence is the frames, one after the other, and a rest that does not start with one. -/
structure Splits (symbols : List α) (frames : List (List α)) (rest : List α) : Prop where
  joined : frames.flatten ++ rest = symbols
  framed : ∀ frame ∈ frames, framing.IsFrame limit frame
  longest : ∀ frame, framing.IsFrame limit frame → ¬ frame <+: rest

variable {framing limit} {symbols later frame rest : List α} {frames : List (List α)}

theorem announced_append (complete : framing.headerSize ≤ symbols.length) :
    framing.announced (symbols ++ later) = framing.announced symbols := by
  rw [announced, announced, take_append_of_le_length complete]

theorem Excessive.append (excessive : framing.Excessive limit symbols) (later : List α) :
    framing.Excessive limit (symbols ++ later) where
  complete := by
    rw [length_append]
    exact excessive.complete.trans (Nat.le_add_right _ _)
  exceeds := (announced_append excessive.complete).symm ▸ excessive.exceeds

namespace IsFrame

theorem headerSize_le (isFrame : framing.IsFrame limit frame) :
    framing.headerSize ≤ frame.length := by
  rw [isFrame.length]
  exact Nat.le_add_right _ _

theorem ne_nil (isFrame : framing.IsFrame limit frame) : frame ≠ [] := by
  rintro rfl
  exact absurd isFrame.headerSize_le (not_le.mpr framing.headerSize_pos)

theorem not_excessive_append (isFrame : framing.IsFrame limit frame) :
    ¬ framing.Excessive limit (frame ++ later) := by
  intro excessive
  have exceeds := excessive.exceeds
  rw [announced_append isFrame.headerSize_le] at exceeds
  exact absurd isFrame.within (not_le.mpr exceeds)

theorem eq_of_append {frame' later' : List α} (isFrame : framing.IsFrame limit frame)
    (isFrame' : framing.IsFrame limit frame') (same : frame ++ later = frame' ++ later') :
    frame = frame' ∧ later = later' := by
  refine append_inj same ?_
  have sameSize := congrArg framing.announced same
  rw [announced_append isFrame.headerSize_le, announced_append isFrame'.headerSize_le] at sameSize
  rw [isFrame.length, isFrame'.length, sameSize]

theorem of_take (complete : framing.headerSize + framing.announced symbols ≤ symbols.length)
    (within : framing.announced symbols ≤ limit) :
    framing.IsFrame limit (symbols.take (framing.headerSize + framing.announced symbols)) := by
  have sameSize : framing.announced (symbols.take (framing.headerSize + framing.announced symbols))
      = framing.announced symbols := by
    simp [announced, take_take]
  refine ⟨?_, sameSize.symm ▸ within⟩
  rw [sameSize, length_take, min_eq_left complete]

end IsFrame

theorem Excessive.splits (excessive : framing.Excessive limit rest) :
    framing.Splits limit rest [] rest where
  joined := rfl
  framed := nofun
  longest := by
    rintro frame isFrame ⟨later, rfl⟩
    exact isFrame.not_excessive_append excessive

theorem splits_of_short
    (short : framing.headerSize ≤ rest.length →
      rest.length < framing.headerSize + framing.announced rest) :
    framing.Splits limit rest [] rest where
  joined := rfl
  framed := nofun
  longest := by
    rintro frame isFrame ⟨later, rfl⟩
    have complete : framing.headerSize ≤ (frame ++ later).length := by
      rw [length_append]
      exact isFrame.headerSize_le.trans (Nat.le_add_right _ _)
    have tooShort := short complete
    rw [announced_append isFrame.headerSize_le, ← isFrame.length, length_append] at tooShort
    omega

namespace Splits

theorem cons (isFrame : framing.IsFrame limit frame)
    (splits : framing.Splits limit symbols frames rest) :
    framing.Splits limit (frame ++ symbols) (frame :: frames) rest where
  joined := by rw [flatten_cons, append_assoc, splits.joined]
  framed := by
    intro other mem
    rcases mem_cons.mp mem with rfl | mem
    · exact isFrame
    · exact splits.framed other mem
  longest := splits.longest

theorem append {frames' : List (List α)} {rest' : List α}
    (splits : framing.Splits limit symbols frames rest)
    (splits' : framing.Splits limit (rest ++ later) frames' rest') :
    framing.Splits limit (symbols ++ later) (frames ++ frames') rest' where
  joined := by
    rw [flatten_append, append_assoc, splits'.joined, ← append_assoc, splits.joined]
  framed := by
    intro frame mem
    rcases mem_append.mp mem with mem | mem
    · exact splits.framed frame mem
    · exact splits'.framed frame mem
  longest := splits'.longest

theorem unique {frames' : List (List α)} {rest' : List α}
    (splits : framing.Splits limit symbols frames rest)
    (splits' : framing.Splits limit symbols frames' rest') : frames = frames' ∧ rest = rest' := by
  induction frames generalizing symbols frames' with
  | nil =>
    cases frames' with
    | nil => exact ⟨rfl, splits.joined.trans splits'.joined.symm⟩
    | cons frame frames' =>
      refine absurd ?_ (splits.longest frame (splits'.framed frame mem_cons_self))
      refine ⟨frames'.flatten ++ rest', ?_⟩
      simpa using splits'.joined.trans splits.joined.symm
  | cons frame frames ih =>
    have isFrame := splits.framed frame mem_cons_self
    cases frames' with
    | nil =>
      refine absurd ?_ (splits'.longest frame isFrame)
      refine ⟨frames.flatten ++ rest, ?_⟩
      simpa using splits.joined.trans splits'.joined.symm
    | cons frame' frames' =>
      -- the header fixes the length of the first frame, so both readings start alike
      have isFrame' := splits'.framed frame' mem_cons_self
      have same := splits.joined.trans splits'.joined.symm
      rw [flatten_cons, flatten_cons, append_assoc, append_assoc] at same
      rcases isFrame.eq_of_append isFrame' same with ⟨rfl, sameRest⟩
      have tail : framing.Splits limit (frames.flatten ++ rest) frames rest :=
        ⟨rfl, fun other mem => splits.framed other (mem_cons_of_mem _ mem), splits.longest⟩
      have tail' : framing.Splits limit (frames.flatten ++ rest) frames' rest' :=
        ⟨sameRest.symm, fun other mem => splits'.framed other (mem_cons_of_mem _ mem),
          splits'.longest⟩
      rcases ih tail tail' with ⟨rfl, rfl⟩
      exact ⟨rfl, rfl⟩

theorem ne_nil_of_frame (splits : framing.Splits limit symbols frames rest)
    (isFrame : framing.IsFrame limit frame) (starts : frame <+: symbols) : frames ≠ [] := by
  rintro rfl
  have whole : rest = symbols := splits.joined
  exact splits.longest frame isFrame (whole ▸ starts)

end Splits

theorem exists_splits (framing : Framing α) (limit : ℕ) (symbols : List α) :
    ∃ frames rest, framing.Splits limit symbols frames rest := by
  induction length : symbols.length using Nat.strong_induction_on generalizing symbols with
  | _ size ih =>
    by_cases starts : ∃ frame, framing.IsFrame limit frame ∧ frame <+: symbols
    · rcases starts with ⟨frame, isFrame, later, rfl⟩
      have shorter : later.length < size := by
        rw [← length, length_append]
        have := length_pos_iff.mpr isFrame.ne_nil
        omega
      rcases ih _ shorter later rfl with ⟨frames, rest, splits⟩
      exact ⟨frame :: frames, rest, .cons isFrame splits⟩
    · exact ⟨[], symbols, rfl, nofun, fun frame isFrame starting =>
        starts ⟨frame, isFrame, starting⟩⟩

theorem Splits.exists_append (splits : framing.Splits limit symbols frames rest)
    (later : List α) :
    ∃ frames' rest', framing.Splits limit (symbols ++ later) (frames ++ frames') rest' := by
  rcases exists_splits framing limit (rest ++ later) with ⟨frames', rest', splits'⟩
  exact ⟨frames', rest', splits.append splits'⟩

end Framing

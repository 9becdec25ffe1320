import Mathlib.Data.List.Basic

/-!
# Journals of a changing value

A journal lists the moves of a value.  It is faithful to the current value when every move starts
where the move before it ended and replaying the moves gives the value.
-/

namespace Synthetos.Lib

variable {α : Type*}

structure Move (α : Type*) where
  source : α
  target : α
deriving DecidableEq, Repr

namespace Journal

def replay (start : α) (moves : List (Move α)) : α := moves.foldl (fun _ move => move.target) start

/-- Every move starts where the one before it ended, the first one at `start`. -/
def Chained (start : α) : List (Move α) → Prop
  | [] => True
  | move :: rest => move.source = start ∧ Chained move.target rest

structure Faithful (start : α) (moves : List (Move α)) (current : α) : Prop where
  chained : Chained start moves
  replayed : replay start moves = current

variable {start current : α} {moves : List (Move α)} {move : Move α}

theorem Faithful.nil : Faithful start [] start := ⟨trivial, rfl⟩

theorem replay_snoc : replay start (moves ++ [move]) = move.target := by
  rw [replay, List.foldl_append]
  rfl

theorem chained_snoc :
    Chained start (moves ++ [move]) ↔ Chained start moves ∧ move.source = replay start moves := by
  induction moves generalizing start with
  | nil =>
    constructor
    · rintro ⟨hsource, -⟩
      exact ⟨trivial, hsource⟩
    · rintro ⟨-, hsource⟩
      exact ⟨hsource, trivial⟩
  | cons first rest ih =>
    rw [List.cons_append, Chained, Chained, ih, and_assoc]
    rfl

/-- A move from the current value extends a faithful journal. -/
theorem Faithful.snoc (h : Faithful start moves current) (hmove : move.source = current) :
    Faithful start (moves ++ [move]) move.target where
  chained := chained_snoc.mpr ⟨h.chained, hmove.trans h.replayed.symm⟩
  replayed := replay_snoc

end Journal

end Synthetos.Lib

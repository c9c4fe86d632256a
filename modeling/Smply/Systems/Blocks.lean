import Mathlib

namespace Systems

open List

variable {State Item : Type}

/-- Takes in whole blocks from the front, and leaves what does not fill one. -/
def absorb (compress : State → List Item → State) (size : Nat) (state : State) (items : List Item) : State × List Item :=
  if 0 < size ∧ size ≤ items.length then absorb compress size (compress state (items.take size)) (items.drop size)
  else (state, items)
termination_by items.length
decreasing_by
  rw [length_drop]
  omega

variable (compress : State → List Item → State) (size : Nat) (state : State)

theorem absorb_short {items : List Item} (short : items.length < size) :
    absorb compress size state items = (state, items) := by
  rw [absorb, if_neg (by omega)]

theorem absorb_append (first second : List Item) : absorb compress size state (first ++ second) =
    absorb compress size (absorb compress size state first).1 ((absorb compress size state first).2 ++ second) := by
  fun_induction absorb compress size state first with
  | case1 state items whole ih =>
    have long : 0 < size ∧ size ≤ (items ++ second).length := by
      rw [length_append]
      omega
    rw [absorb, if_pos long, take_append_of_le_length whole.2, drop_append_of_le_length whole.2, ih]
  | case2 => rfl

theorem length_absorb (items : List Item) (some_ : 0 < size) :
    (absorb compress size state items).2.length = items.length % size := by
  fun_induction absorb compress size state items with
  | case1 state items whole ih => rw [ih, length_drop, ← Nat.mod_eq_sub_mod whole.2]
  | case2 state items short =>
    simp only [not_and, not_le] at short
    exact (Nat.mod_eq_of_lt (short some_)).symm

section
variable {block : List Item} (whole : block.length = size) (some_ : 0 < size)
include whole some_

theorem absorb_block (rest : List Item) :
    absorb compress size state (block ++ rest) = absorb compress size (compress state block) rest := by
  rw [absorb, if_pos (by simp [some_, whole]), take_left' whole, drop_left' whole]

theorem absorb_whole : absorb compress size state block = (compress state block, []) := by
  rw [← append_nil block, absorb_block compress size state whole some_, append_nil, absorb_short _ _ _ some_]

end

end Systems

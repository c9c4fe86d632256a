import Mathlib

namespace Systems

variable {σ α β : Type}

def Ensures (before : σ → Prop) (m : StateM σ α) (after : α → σ → Prop) : Prop :=
  ∀ state, before state → after (m.run state).1 (m.run state).2

namespace Ensures

variable {before : σ → Prop} {m : StateM σ α} {after : α → σ → Prop}

theorem pure_ {value : α} (holds : ∀ state, before state → after value state) :
    Ensures before (pure value) after := holds

theorem bind {middle : α → σ → Prop} {last : β → σ → Prop} {next : α → StateM σ β} (first : Ensures before m middle)
    (rest : ∀ value, Ensures (middle value) (next value) last) : Ensures before (m >>= next) last := by
  intro state holds
  exact rest _ _ (first state holds)

theorem ends : Ensures before m fun _ _ => True := fun _ _ => trivial

theorem get_bind {next : σ → StateM σ α} (rest : ∀ state, before state → Ensures (· = state) (next state) after) :
    Ensures before (get >>= next) after := by
  intro state holds
  exact rest state holds state rfl

theorem strengthen {before' : σ → Prop} (ensures : Ensures before m after)
    (implied : ∀ state, before' state → before state) :
    Ensures before' m after := by
  intro state holds
  exact ensures state (implied state holds)

theorem given {fact : Prop} (ensures : fact → Ensures before m after) :
    Ensures (fun state => fact ∧ before state) m after := by
  intro state holds
  exact ensures holds.1 state holds.2

end Ensures

end Systems

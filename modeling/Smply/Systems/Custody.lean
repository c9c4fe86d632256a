import Smply.Systems.Run

namespace Systems

open List

variable {S E O : Type}

/-- What is held and what was spent of a token add up to what was taken in, over a run. -/
theorem run_balance (step : S → E → O × S) (start : S) (Inv : S → Prop) (held issued : S → Nat) (spends : O → Bool)
    (known : ∀ events, Inv (run step start events)) (initial : held start = issued start)
    (balanced : ∀ state event, Inv state → held state + issued (step state event).2 =
      held (step state event).2 + (if spends (step state event).1 then 1 else 0) + issued state)
    (events : List E) :
    held (run step start events) + (log step start events).countP (fun t => spends t.output) =
      issued (run step start events) := by
  refine history_invariant_with step start (fun _ state => Inv state)
    (fun past state => held state + past.countP (fun t => spends t.output) = issued state) known ?_ ?_ events
  · rw [countP_nil, Nat.add_zero, initial]
  intro past state event inv before
  have now := balanced state event inv
  simp only [countP_append, countP_singleton, transition]
  omega

theorem log_balance (step : S → E → O × S) (start : S) (held : S → Nat) (takes spends : Transition S E O → Bool)
    (balanced : ∀ state event, held state + (if takes (transition step state event) then 1 else 0) =
      held (step state event).2 + (if spends (transition step state event) then 1 else 0))
    (events : List E) :
    held (run step start events) + (log step start events).countP spends =
      held start + (log step start events).countP takes := by
  refine history_invariant step start
    (fun past state => held state + past.countP spends = held start + past.countP takes) ?_ ?_ events
  · rfl
  intro past state event before
  have now := balanced state event
  simp only [countP_append, countP_singleton]
  omega

theorem countP_set_add {α : Type} (p : α → Bool) {places : List α} {index : Nat} {old : α}
    (found : places[index]? = some old) (new : α) :
    (places.set index new).countP p + (if p old then 1 else 0) = places.countP p + (if p new then 1 else 0) := by
  induction places generalizing index with
  | nil => simp at found
  | cons place places ih =>
    cases index with
    | zero =>
      obtain rfl : place = old := by simpa using found
      simp only [set_cons_zero, countP_cons]
      omega
    | succ index =>
      have rest := ih (show places[index]? = some old by simpa using found)
      simp only [set_cons_succ, countP_cons]
      omega

end Systems

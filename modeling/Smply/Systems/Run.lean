import Mathlib

namespace Systems

variable {S E O : Type}

structure Transition (S E O : Type) where
  before : S
  event : E
  output : O
  after : S

def transition (step : S → E → O × S) (state : S) (event : E) : Transition S E O :=
  ⟨state, event, (step state event).1, (step state event).2⟩

def run (step : S → E → O × S) (start : S) (events : List E) : S :=
  events.foldl (fun state event => (step state event).2) start

def log (step : S → E → O × S) (start : S) : List E → List (Transition S E O)
  | [] => []
  | event :: rest => transition step start event :: log step (step start event).2 rest

section
variable (step : S → E → O × S) (start : S)
include step start

theorem run_append (first second : List E) :
    run step start (first ++ second) = run step (run step start first) second := by
  simp [run]

theorem run_concat (events : List E) (event : E) :
    run step start (events ++ [event]) = (step (run step start events) event).2 := by
  simp [run]

theorem log_append (first second : List E) :
    log step start (first ++ second) = log step start first ++ log step (run step start first) second := by
  induction first generalizing start with
  | nil => rfl
  | cons _ _ ih =>
    simp only [List.cons_append, log, ih]
    rfl

theorem log_concat (events : List E) (event : E) : log step start (events ++ [event]) =
      log step start events ++ [transition step (run step start events) event] := log_append step start events [event]

theorem log_event {events : List E} {t : Transition S E O}
    (member : t ∈ log step start events) : t.event ∈ events := by
  induction events generalizing start with
  | nil => cases member
  | cons _ _ ih =>
    rcases List.mem_cons.mp member with rfl | later
    · exact List.mem_cons_self ..
    · exact List.mem_cons_of_mem _ (ih _ later)

end

theorem log_inside {T : Type} (step : S → E → O × S) (outer : T → E → O × T) (inside : T → S)
    (agrees : ∀ state event, step (inside state) event = ((outer state event).1, inside (outer state event).2))
    (start : T) (events : List E) :
    log step (inside start) events = (log outer start events).map fun t =>
      ⟨inside t.before, t.event, t.output, inside t.after⟩ := by
  induction events generalizing start with
  | nil => rfl
  | cons _ _ ih => simp only [log, List.map_cons, transition, agrees, ih]

section
variable (step : S → E → O × S) (start : S)
include step start

theorem log_split (events : List E) {past later : List (Transition S E O)}
    {t : Transition S E O} (split : log step start events = past ++ t :: later) :
    ∃ earlier event rest, events = earlier ++ event :: rest ∧ log step start earlier = past ∧
      t = transition step (run step start earlier) event ∧ later = log step t.after rest := by
  induction events generalizing start past with
  | nil => simp [log] at split
  | cons event events ih =>
    cases past with
    | nil =>
      obtain ⟨first, tail⟩ := List.cons.inj split
      refine ⟨[], event, events, rfl, rfl, first.symm, ?_⟩
      rw [← tail, ← first]
      rfl
    | cons =>
      obtain ⟨first, tail⟩ := List.cons.inj split
      obtain ⟨earlier, last, rest, same, log_eq, t_eq, later_eq⟩ := ih (step start event).2 tail
      refine ⟨event :: earlier, last, rest, by rw [same]; rfl, ?_, t_eq, later_eq⟩
      simp only [log, log_eq, first]

/-- Histories are built at their end, so an invariant may speak about all that came before. -/
theorem history_invariant_with (Known Inv : List (Transition S E O) → S → Prop)
    (known : ∀ events, Known (log step start events) (run step start events)) (initial : Inv [] start)
    (preserved : ∀ past state event, Known past state → Inv past state →
      Inv (past ++ [transition step state event]) (step state event).2)
    (events : List E) : Inv (log step start events) (run step start events) := by
  induction events using List.reverseRecOn with
  | nil => exact initial
  | append_singleton events _ ih =>
    rw [log_concat, run_concat]
    exact preserved _ _ _ (known events) ih

theorem history_invariant (Inv : List (Transition S E O) → S → Prop) (initial : Inv [] start)
    (preserved : ∀ past state event, Inv past state →
      Inv (past ++ [transition step state event]) (step state event).2)
    (events : List E) : Inv (log step start events) (run step start events) :=
  history_invariant_with step start (fun _ _ => True) Inv (fun _ => trivial) initial
    (fun past state event _ => preserved past state event) events

theorem guarded_invariant (Known : S → Prop) (Guard : Transition S E O → Prop)
    (Inv : List (Transition S E O) → S → Prop) (known : ∀ events, Known (run step start events))
    (initial : Inv [] start)
    (preserved : ∀ past state event, Known state → Guard (transition step state event) → Inv past state →
      Inv (past ++ [transition step state event]) (step state event).2)
    (events : List E) (guarded : ∀ t ∈ log step start events, Guard t) :
    Inv (log step start events) (run step start events) :=
  history_invariant_with step start (fun _ => Known) (fun past state => (∀ t ∈ past, Guard t) → Inv past state) known
    (fun _ => initial)
    (fun past state event known before guarded => preserved past state event known (guarded _ (by simp))
      (before fun t member => guarded t (List.mem_append_left _ member)))
    events guarded

theorem invariant_since (events : List E) {past later : List (Transition S E O)}
    {t : Transition S E O} (split : log step start events = past ++ t :: later)
    (Guard : Transition S E O → Prop) (Inv : List (Transition S E O) → S → Prop) (initial : Inv [] t.after)
    (preserved : ∀ since state event, Guard (transition step state event) → Inv since state →
      Inv (since ++ [transition step state event]) (step state event).2)
    (guarded : ∀ u ∈ later, Guard u) : Inv later (run step start events) := by
  obtain ⟨earlier, event, rest, whole, _, is, rest_eq⟩ := log_split step start events split
  have final : run step start events = run step t.after rest := by
    rw [whole, run_append, is]
    rfl
  rw [final, rest_eq]
  exact guarded_invariant step t.after (fun _ => True) Guard Inv (fun _ => trivial) initial
    (fun since state event _ => preserved since state event) rest (rest_eq ▸ guarded)

theorem state_invariant (Inv : S → Prop) (initial : Inv start)
    (preserved : ∀ state event, Inv state → Inv (step state event).2) (events : List E) :
    Inv (run step start events) :=
  history_invariant step start (fun _ state => Inv state) initial
    (fun _ state event => preserved state event) events

theorem run_holds (P : S → Prop) (initial : P start) (events : List E)
    (all : ∀ t ∈ log step start events, P t.after) : P (run step start events) := by
  induction events generalizing start with
  | nil => exact initial
  | cons event _ ih =>
    have first := all _ (List.mem_cons_self ..)
    exact ih (step start event).2 first fun t member => all t (List.mem_cons_of_mem _ member)

theorem guarded_transitions (Inv : S → Prop) (Guard P : Transition S E O → Prop) (initial : Inv start)
    (preserved : ∀ state event, Guard (transition step state event) → Inv state → Inv (step state event).2)
    (local_ : ∀ state event, Guard (transition step state event) → Inv state → P (transition step state event))
    (events : List E) (guarded : ∀ t ∈ log step start events, Guard t) : ∀ t ∈ log step start events, P t := by
  have both := guarded_invariant step start (fun _ => True) Guard (fun past state => Inv state ∧ ∀ t ∈ past, P t)
    (fun _ => trivial) ⟨initial, by simp⟩
    (by
      intro past state event _ now before
      refine ⟨preserved state event now before.1, fun t member => ?_⟩
      rcases List.mem_append.mp member with member | member
      · exact before.2 t member
      · rw [List.mem_singleton.mp member]
        exact local_ state event now before.1)
    events guarded
  exact both.2

theorem every_transition (Inv : S → Prop) (P : Transition S E O → Prop) (initial : Inv start)
    (preserved : ∀ state event, Inv state → Inv (step state event).2)
    (local_ : ∀ state event, Inv state → P (transition step state event)) (events : List E) :
    ∀ t ∈ log step start events, P t :=
  guarded_transitions step start Inv (fun _ => True) P initial (fun state event _ => preserved state event)
    (fun state event _ => local_ state event) events fun _ _ => trivial

end

end Systems

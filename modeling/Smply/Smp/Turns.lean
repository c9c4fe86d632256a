import Smply.Systems.Tally
import Smply.Smp.Sweep

namespace Smply.Smp

open Systems List

def Pending.outcome (entry : Pending) (result : Result RawResponse) : Output :=
  match entry.callback with
  | none => .quiet
  | some callback => .completed callback result

namespace World

def turns (rest : List Frame) (t : Transition World Event Output) : Bool :=
  match t.event with
  | .proceed => t.before.stack.length == rest.length + 1
  | .call _ => false

def takes (slot : Nat) (t : Transition World Event Output) : Bool :=
  t.before.client.pending[slot]?.any Pending.active && t.after.client.pending[slot]?.all fun entry => !entry.active

def Kept (slot : Nat) (entry : Pending) (steps : List (Transition World Event Output)) : Prop :=
  ∀ v ∈ steps, v.after.client.pending[slot]? = some entry

def Ended (steps : List (Transition World Event Output)) (slot : Nat) (entry : Pending)
    (kind : Transition World Event Output → Bool) : Prop :=
  ∃ first u others, steps = first ++ u :: others ∧ Kept slot entry first ∧ takes slot u = true ∧ kind u = true

variable {steps : List (Transition World Event Output)} {slot : Nat} {entry : Pending}
  {kind another : Transition World Event Output → Bool}

theorem Ended.append (ended : Ended steps slot entry kind) (more : List (Transition World Event Output)) :
    Ended (steps ++ more) slot entry kind := by
  obtain ⟨first, u, others, rfl, kept, takes, is⟩ := ended
  exact ⟨first, u, others ++ more, by simp, kept, takes, is⟩

theorem Kept.concat (kept : Kept slot entry steps) {u : Transition World Event Output}
    (stands : u.after.client.pending[slot]? = some entry) : Kept slot entry (steps ++ [u]) := by
  intro v member
  rcases mem_append.mp member with member | member
  · exact kept v member
  · rw [mem_singleton.mp member]
    exact stands

theorem kept_untaken {u : Transition World Event Output} (active : entry.active = true)
    (stands : u.after.client.pending[slot]? = some entry) : takes slot u = false := by
  simp [takes, stands, active]

theorem Ended.same (active : entry.active = true) (ended : Ended steps slot entry kind)
    (again : Ended steps slot entry another) : ∃ u, kind u = true ∧ another u = true := by
  obtain ⟨first, u, others, rfl, kept, takes_, is⟩ := ended
  obtain ⟨second, v, rest, same, stays, taken, also⟩ := again
  rcases append_eq_append_iff.mp same with ⟨gap, rfl, tail⟩ | ⟨gap, rfl, tail⟩
  · cases gap with
    | nil =>
      obtain ⟨rfl, _⟩ := List.cons.inj tail
      exact ⟨u, is, also⟩
    | cons =>
      obtain ⟨rfl, _⟩ := List.cons.inj tail
      rw [kept_untaken active (stays u (by simp))] at takes_
      cases takes_
  · cases gap with
    | nil =>
      obtain ⟨rfl, _⟩ := List.cons.inj tail
      exact ⟨v, is, also⟩
    | cons =>
      obtain ⟨rfl, _⟩ := List.cons.inj tail
      rw [kept_untaken active (kept v (by simp))] at taken
      cases taken

theorem Booked.fate {before after : World} {event : Event} {output : Output} (booked : Booked before event output after)
    (stood : before.client.pending[slot]? = some entry) (active : entry.active = true) :
    after.client.pending[slot]? = some entry ∨ after.client.pending[slot]? = some entry.cleared := by
  cases booked with
  | kept _ _ _ books =>
    have pending := congrArg SmpClient.pending books
    exact .inl (by rw [show after.client.pending = before.client.pending from pending, stood])
  | unsent _ _ _ _ _ _ _ _ draws books =>
    have pending := congrArg SmpClient.pending books
    rw [SmpClient.retire_pending, draws.same] at pending
    exact .inl (by rw [show after.client.pending = before.client.pending from pending, stood])
  | sent _ _ _ place _ new _ _ _ _ books draws stands free =>
    have pending := congrArg SmpClient.pending books
    rw [draws.same] at pending
    have elsewhere : place ≠ slot := by
      rintro rfl
      rw [Option.some.inj (stands.symm.trans stood), active] at free
      cases free
    left
    rw [show after.client.pending = before.client.pending.set place new from pending, getElem?_set_ne elsewhere, stood]
  | detached _ _ place held _ stands _ books =>
    have pending := congrArg SmpClient.pending books
    rw [SmpClient.detached, SmpClient.retire_pending] at pending
    rw [show after.client.pending = before.client.pending.set place held.cleared from pending]
    by_cases here : place = slot
    · subst here
      right
      rw [← Option.some.inj (stands.symm.trans stood), List.getElem?_set_self (List.getElem?_eq_some_iff.mp stands).1]
    · exact .inl (by rw [getElem?_set_ne here, stood])

variable {extractMgmtError : Bytes → Result MgmtOutcome}

theorem step_above {before : World} {above rest : List Frame} {frame : Frame}
    (stands : before.stack = above ++ frame :: rest) (event : Event) :
    turns rest (transition (World.step extractMgmtError) before event) = false ∧
        (∃ higher, (before.step extractMgmtError event).2.stack = higher ++ frame :: rest) ∨
      event = .proceed ∧ above = [] := by
  cases event with
  | call call =>
    refine .inl ⟨rfl, ?_⟩
    simp only [step]
    split
    · obtain ⟨frames, stack, _⟩ := before.enter_frames call
      exact ⟨frames ++ above, by rw [stack, stands, append_assoc]⟩
    · exact ⟨above, stands⟩
  | proceed =>
    cases above with
    | nil => exact .inr ⟨rfl, rfl⟩
    | cons top above =>
      obtain ⟨frames, stack, _⟩ := @proceed_leaves extractMgmtError before top (above ++ frame :: rest) stands
      have below : (before.step extractMgmtError .proceed).2.stack = frames ++ (above ++ frame :: rest) := stack
      refine .inl ⟨?_, frames ++ above, by rw [below, append_assoc]⟩
      simp only [turns, transition, stands, length_append, length_cons, beq_eq_false_iff_ne]
      omega

/-- A function that goes over the table completes, with its error, exactly the due requests that stood there when it
began and that nothing else took out. -/
structure Sweeps (began : World) (rest : List Frame) (error : Error) (due : Pending → Bool)
    (during : List (Transition World Event Output)) (returned : Prop) : Prop where
  only : ∀ first u others, during = first ++ u :: others → turns rest u = true →
    (∀ slot, takes slot u = true → ∃ entry, began.client.pending[slot]? = some entry ∧ entry.active = true ∧
      due entry = true ∧ Kept slot entry first ∧ u.output = entry.outcome (.error error)) ∧
    ((∀ slot, takes slot u = false) → u.output = .quiet)
  once : ∀ slot, during.countP (fun u => turns rest u && takes slot u) ≤ 1
  every : returned → ∀ slot entry, began.client.pending[slot]? = some entry → entry.active = true → due entry = true →
    (during.countP (fun u => turns rest u && takes slot u) = 1 ↔ ¬ Ended during slot entry fun u => !turns rest u)

structure Progress (began : World) (rest : List Frame) (error : Error) (due : Pending → Bool) (visited : Nat → Prop)
    (since : List (Transition World Event Output)) (state : World) : Prop where
  only : ∀ first u others, since = first ++ u :: others → turns rest u = true →
    (∀ slot, takes slot u = true → ∃ entry, began.client.pending[slot]? = some entry ∧ entry.active = true ∧
      due entry = true ∧ Kept slot entry first ∧ u.output = entry.outcome (.error error)) ∧
    ((∀ slot, takes slot u = false) → u.output = .quiet)
  through : ∀ slot entry, began.client.pending[slot]? = some entry → entry.active = true → due entry = true →
    visited slot → Ended since slot entry (turns rest) ∨ Ended since slot entry fun u => !turns rest u
  ahead : ∀ slot entry, began.client.pending[slot]? = some entry → entry.active = true → due entry = true →
    ¬ visited slot → state.client.pending[slot]? = some entry ∧ Kept slot entry since ∨
      Ended since slot entry fun u => !turns rest u

section
variable {began before : World} {rest : List Frame} {error : Error} {due : Pending → Bool} {visited next : Nat → Prop}
  {since : List (Transition World Event Output)} {event : Event}

theorem progress_start (same : before.client.pending = began.client.pending)
    (unvisited : ∀ slot entry, began.client.pending[slot]? = some entry → entry.active = true → due entry = true →
      ¬ visited slot) : Progress began rest error due visited [] before := by
  refine ⟨?_, ?_, ?_⟩
  · intro first u others empty
    cases first <;> cases empty
  · intro slot entry stood active ripe is
    exact absurd is (unvisited slot entry stood active ripe)
  · intro slot entry stood _ _ _
    rw [same]
    exact .inl ⟨stood, fun _ member => (not_mem_nil member).elim⟩

theorem takes_only {place : Nat} {held : Pending} {t : Transition World Event Output}
    (pending : t.after.client.pending = t.before.client.pending.set place held) (took : takes slot t = true) :
    slot = place := by
  by_contra elsewhere
  rw [takes, pending, getElem?_set_ne (Ne.symm elsewhere)] at took
  cases stood : t.before.client.pending[slot]? with
  | none | some => simp [stood] at took

theorem takes_none {t : Transition World Event Output} (pending : t.after.client.pending = t.before.client.pending) :
    takes slot t = false := by
  rw [takes, pending]
  cases stood : t.before.client.pending[slot]? with
  | none => rfl
  | some => simp

section
variable (progress : Progress began rest error due visited since before)
include progress

theorem Progress.foreign (others_turn : turns rest (transition (World.step extractMgmtError) before event) = false) :
    Progress began rest error due visited (since ++ [transition (World.step extractMgmtError) before event])
      (before.step extractMgmtError event).2 := by
  refine ⟨?_, ?_, ?_⟩
  · intro first u others same own
    rcases split_concat same with ⟨shorter, earlier⟩ | ⟨_, rfl⟩
    · exact progress.only first u shorter earlier own
    · rw [others_turn] at own
      cases own
  · intro slot entry stood active is done
    rcases progress.through slot entry stood active is done with own | others
    · exact .inl (own.append _)
    · exact .inr (others.append _)
  · intro slot entry stood active is left
    rcases progress.ahead slot entry stood active is left with ⟨stands, kept⟩ | others
    · rcases (@step_booked extractMgmtError before event).fate stands active with stays | gone
      · exact .inl ⟨stays, kept.concat stays⟩
      refine .inr ⟨since, _, [], rfl, kept, ?_, ?_⟩
      · simp [takes, transition, stands, gone, active, Pending.cleared]
      · simpa using others_turn
    · exact .inr (others.append _)

theorem Progress.passes (pending : (before.step extractMgmtError event).2.client.pending = before.client.pending)
    (quiet : (before.step extractMgmtError event).1 = .quiet) (further : ∀ slot, visited slot → next slot)
    (nothing : ∀ slot entry, began.client.pending[slot]? = some entry → entry.active = true → due entry = true →
      next slot → ¬ visited slot → before.client.pending[slot]? = some entry → False) :
    Progress began rest error due next (since ++ [transition (World.step extractMgmtError) before event])
      (before.step extractMgmtError event).2 := by
  refine ⟨?_, ?_, ?_⟩
  · intro first u others same turned
    rcases split_concat same with ⟨shorter, earlier⟩ | ⟨_, rfl⟩
    · exact progress.only first u shorter earlier turned
    refine ⟨fun slot took => ?_, fun _ => quiet⟩
    rw [takes_none pending] at took
    cases took
  · intro slot entry stood active is done
    by_cases known : visited slot
    · rcases progress.through slot entry stood active is known with own | others
      · exact .inl (own.append _)
      · exact .inr (others.append _)
    rcases progress.ahead slot entry stood active is known with ⟨stands, _⟩ | others
    · exact (nothing slot entry stood active is done known stands).elim
    · exact .inr (others.append _)
  · intro slot entry stood active is left
    rcases progress.ahead slot entry stood active is (fun known => left (further slot known)) with ⟨stands, kept⟩ | others
    · have stays : (before.step extractMgmtError event).2.client.pending[slot]? = some entry := by rw [pending, stands]
      exact .inl ⟨stays, kept.concat stays⟩
    · exact .inr (others.append _)

theorem Progress.completes
    (own : turns rest (transition (World.step extractMgmtError) before event) = true) {place : Nat} {held : Pending}
    (began_with : began.client.pending[place]? = some held) (live : held.active = true) (ripe : due held = true)
    (stands : before.client.pending[place]? = some held) (kept : Kept place held since)
    (pending : (before.step extractMgmtError event).2.client.pending = before.client.pending.set place held.cleared)
    (output : (before.step extractMgmtError event).1 = held.outcome (.error error))
    (further : ∀ slot, next slot ↔ visited slot ∨ slot = place) :
    Progress began rest error due next (since ++ [transition (World.step extractMgmtError) before event])
      (before.step extractMgmtError event).2 := by
  have took : takes place (transition (World.step extractMgmtError) before event) = true := by
    have left : (before.step extractMgmtError event).2.client.pending[place]? = some held.cleared := by
      rw [pending, List.getElem?_set_self (List.getElem?_eq_some_iff.mp stands).1]
    simp [takes, transition, stands, live, left, Pending.cleared]
  refine ⟨?_, ?_, ?_⟩
  · intro first u others same turned
    rcases split_concat same with ⟨shorter, earlier⟩ | ⟨rfl, rfl⟩
    · exact progress.only first u shorter earlier turned
    refine ⟨fun slot taken => ?_, fun none_ => ?_⟩
    · obtain rfl := takes_only pending taken
      exact ⟨held, began_with, live, ripe, kept, output⟩
    · rw [none_ place] at took
      cases took
  · intro slot entry stood active is done
    by_cases here : slot = place
    · subst here
      obtain rfl : held = entry := Option.some.inj (began_with.symm.trans stood)
      exact .inl ⟨since, _, [], rfl, kept, took, own⟩
    have known := ((further slot).mp done).resolve_right here
    rcases progress.through slot entry stood active is known with own | others
    · exact .inl (own.append _)
    · exact .inr (others.append _)
  · intro slot entry stood active is left
    have unknown : ¬ visited slot := fun known => left ((further slot).mpr (.inl known))
    have elsewhere : place ≠ slot := fun here => left ((further slot).mpr (.inr here.symm))
    rcases progress.ahead slot entry stood active is unknown with ⟨stands, kept⟩ | others
    · have stays : (before.step extractMgmtError event).2.client.pending[slot]? = some entry := by
        rw [pending, getElem?_set_ne elsewhere, stands]
      exact .inl ⟨stays, kept.concat stays⟩
    · exact .inr (others.append _)

theorem Progress.sweeps {returned : Prop}
    (done : returned → ∀ slot, visited slot) : Sweeps began rest error due since returned := by
  have once (slot : Nat) : since.countP (fun u => turns rest u && takes slot u) ≤ 1 := by
    refine countP_le_one _ fun first u others same meets v member => ?_
    rw [Bool.and_eq_true] at meets
    obtain ⟨entry, _, active, _, kept, _⟩ := (progress.only first u others same meets.1).1 slot meets.2
    rw [kept_untaken active (kept v member), Bool.and_false]
  refine ⟨progress.only, once, fun over_ slot entry stood active is => ?_⟩
  have which := progress.through slot entry stood active is (done over_ slot)
  constructor
  · intro one foreign
    obtain ⟨u, member, meets⟩ := countP_pos_iff.mp (by rw [one]; exact Nat.one_pos)
    rw [Bool.and_eq_true] at meets
    obtain ⟨first, others, same⟩ := append_of_mem member
    obtain ⟨other, began_with, _, _, kept, _⟩ := (progress.only first u others same meets.1).1 slot meets.2
    obtain rfl : entry = other := Option.some.inj (stood.symm.trans began_with)
    have own : Ended since slot entry (turns rest) := ⟨first, u, others, same, kept, meets.2, meets.1⟩
    obtain ⟨v, turn, other⟩ := own.same active foreign
    rw [turn] at other
    cases other
  · intro none_
    obtain ⟨first, u, others, same, _, took, turn⟩ := which.resolve_right none_
    refine Nat.le_antisymm (once slot) (countP_pos_iff.mpr ⟨u, ?_, by rw [turn, took]; rfl⟩)
    rw [same]
    simp

end

end

end World

end Smply.Smp

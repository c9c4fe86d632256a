import Smply.Systems.Run

namespace Smply

open List Systems

/-- Closures are numbered. While `drain` runs, `work` is what it has taken and `left` what of it has still to run. -/
structure Dispatcher where
  onWake : Bool := false
  queue : List Nat := []
  draining : Bool := false
  work : List Nat := []
  left : List Nat := []

namespace Dispatcher

/-- Any thread posts at any time; the client's own drains and clears, also from a closure, which returns or throws. -/
inductive Event where
  | post (work : Option Nat)
  | drain
  | clear
  | returned
  | thrown

inductive Output where
  | quiet
  | woken
  | ran (item : Nat)
  | drained (count : Nat)
  | destroyed (items : List Nat)

/-- The loop of `drain`, up to the next closure or to the end. -/
def goOn (dispatcher : Dispatcher) : Output × Dispatcher :=
  match dispatcher.left with
  | [] => (.drained dispatcher.work.length, { dispatcher with draining := false })
  | item :: left => (.ran item, { dispatcher with left := left })

def step (dispatcher : Dispatcher) : Event → Output × Dispatcher
  | .post none => (.quiet, dispatcher)
  | .post (some work) =>
    (if dispatcher.onWake then .woken else .quiet, { dispatcher with queue := dispatcher.queue ++ [work] })
  | .drain =>
    if dispatcher.draining then (.drained 0, dispatcher)
    else if dispatcher.queue.isEmpty then (.drained 0, dispatcher)
    else goOn { dispatcher with queue := [], draining := true, work := dispatcher.queue, left := dispatcher.queue }
  | .clear => (.destroyed dispatcher.queue, { dispatcher with queue := [] })
  | .returned => if dispatcher.draining then dispatcher.goOn else (.quiet, dispatcher)
  | .thrown =>
    if dispatcher.draining then (.destroyed dispatcher.left, { dispatcher with draining := false, left := [] })
    else (.quiet, dispatcher)

@[simp] def Event.posts : Event → List Nat
  | .post work => work.toList
  | _ => []

@[simp] def Output.runs : Output → List Nat
  | .ran item => [item]
  | _ => []

@[simp] def Output.destroys : Output → List Nat
  | .destroyed items => items
  | _ => []

/-- Each closure posted has run, has been destroyed or is still held, and they run in the order they were posted in. A
drain has taken what it has run since it began and what it has left, and nothing that was posted since. -/
structure Keeps (posted ran destroyed : List Nat) (now : Dispatcher) : Prop where
  order : ran ++ (now.left ++ now.queue) <+ posted
  once : ∀ item, posted.count item =
    ran.count item + now.left.count item + now.queue.count item + destroyed.count item
  taken : now.draining = true → ∃ done, now.work = done ++ now.left ∧ done <:+ ran
  idle : now.draining = false → now.left = []

section
variable {posted ran destroyed : List Nat} {now : Dispatcher}

theorem Keeps.goOn (keeps : Keeps posted ran destroyed now) (draining : now.draining = true) :
    Keeps posted (ran ++ now.goOn.1.runs) (destroyed ++ now.goOn.1.destroys) now.goOn.2 := by
  obtain ⟨order, once, taken, _⟩ := keeps
  obtain ⟨done, work, ended⟩ := taken draining
  unfold Dispatcher.goOn
  split
  · rename_i empty
    exact ⟨by simpa using order, by simpa using once, by simp, fun _ => empty⟩
  · rename_i item left more
    rw [more] at order once work
    refine ⟨by simpa using order, fun other => ?_, fun _ => ⟨done ++ [item], by simpa using work, ?_⟩, by simp [draining]⟩
    · have count := once other
      simp only [Output.runs, Output.destroys, count_append, count_cons, count_nil, append_nil] at count ⊢
      omega
    · exact (suffix_append_inj_of_length_eq rfl).mpr ⟨ended, rfl⟩

theorem Keeps.step (keeps : Keeps posted ran destroyed now) (event : Event) :
    Keeps (posted ++ event.posts) (ran ++ (now.step event).1.runs) (destroyed ++ (now.step event).1.destroys)
      (now.step event).2 := by
  obtain ⟨order, once, taken, idle⟩ := id keeps
  unfold Dispatcher.step
  split
  · simpa using keeps
  · have silent : (if now.onWake then Output.woken else .quiet).runs = [] ∧
        (if now.onWake then Output.woken else .quiet).destroys = [] := by
      split <;> exact ⟨rfl, rfl⟩
    dsimp only
    rw [silent.1, silent.2]
    refine ⟨?_, fun item => ?_, by simpa using taken, idle⟩
    · simpa using order.append (Sublist.refl [_])
    · have count := once item
      simp only [Event.posts, Option.toList_some, count_append, append_nil]
      omega
  · split
    · simpa using keeps
    split
    · simpa using keeps
    rename_i undraining _
    rw [idle (by simpa using undraining)] at order once
    rw [Event.posts, append_nil]
    · exact Keeps.goOn ⟨by simpa using order, by simpa using once, fun _ => ⟨[], rfl, nil_suffix⟩, by simp⟩ rfl
    · simp
  · refine ⟨?_, fun item => ?_, by simpa using taken, idle⟩
    · simpa using ((sublist_append_left now.left now.queue).append_left ran).trans order
    · have count := once item
      simp only [Event.posts, Output.runs, Output.destroys, count_append, append_nil, count_nil]
      omega
  · split
    · rename_i draining
      simpa using keeps.goOn draining
    · simpa using keeps
  · split
    · refine ⟨?_, fun item => ?_, by simp, fun _ => rfl⟩
      · simpa using ((sublist_append_right now.left now.queue).append_left ran).trans order
      · have count := once item
        simp only [Event.posts, Output.runs, Output.destroys, count_append, append_nil, count_nil]
        omega
    · simpa using keeps

end

/-- Whatever threads post and closures do, and in whatever order. -/
theorem dispatched_in_order (onWake : Bool) (events : List Event) :
    Keeps ((log step { onWake := onWake } events).flatMap (·.event.posts))
      ((log step { onWake := onWake } events).flatMap (·.output.runs))
      ((log step { onWake := onWake } events).flatMap (·.output.destroys)) (run step { onWake := onWake } events) := by
  refine history_invariant step { onWake := onWake } (fun past => Keeps (past.flatMap (·.event.posts))
    (past.flatMap (·.output.runs)) (past.flatMap (·.output.destroys))) ⟨.slnil, by simp, by simp, by simp⟩ (fun past state event keeps => ?_) events
  simpa only [flatMap_append, flatMap_singleton, transition] using keeps.step event

end Dispatcher

end Smply

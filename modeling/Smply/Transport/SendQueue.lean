import Smply.Core.Error

namespace Smply.Transport

inductive Admission where
  | startWriter | queued | busy
  deriving DecidableEq

structure SendCounters where
  deferred : UInt64 := 0
  refused : UInt64 := 0

structure SendQueue where
  waiting : Option Bytes := none
  writing : Bool := false
  counters : SendCounters := {}

namespace SendQueue

def offer (queue : SendQueue) (message : Bytes) : Admission × SendQueue :=
  if !queue.writing then
    (.startWriter, { queue with writing := true, waiting := some message })
  else if queue.waiting = none then
    (.queued, { queue with waiting := some message, counters.deferred := queue.counters.deferred + 1 })
  else
    (.busy, { queue with counters.refused := queue.counters.refused + 1 })

def nextForWriter (queue : SendQueue) : Option Bytes × SendQueue :=
  match queue.waiting with
  | none => (none, { queue with writing := false })
  | some message => (some message, { queue with waiting := none })

def discardQueued (queue : SendQueue) : SendQueue := { queue with waiting := none }

/-- A queue in use: its live writers, and the messages accepted, handed out and discarded. A started writer asks until
there is none. -/
inductive Uses : SendQueue → Nat → List Bytes → List Bytes → List Bytes → Prop
  | start : Uses {} 0 [] [] []
  | offer {queue writers accepted handed discarded} (message : Bytes) : Uses queue writers accepted handed discarded →
    Uses (queue.offer message).2 (if (queue.offer message).1 = .startWriter then writers + 1 else writers)
      (if (queue.offer message).1 = .busy then accepted else accepted ++ [message]) handed discarded
  | next {queue writers accepted handed discarded} : Uses queue writers accepted handed discarded → 0 < writers →
    Uses queue.nextForWriter.2 (if queue.nextForWriter.1 = none then writers - 1 else writers) accepted
      (handed ++ queue.nextForWriter.1.toList) discarded
  | discard {queue writers accepted handed discarded} : Uses queue writers accepted handed discarded →
    Uses queue.discardQueued writers accepted handed (discarded ++ queue.waiting.toList)

/-- One writer at most, none missing while a message waits, and each message accepted has one fate, in their order. -/
theorem fates_of_uses {queue : SendQueue} {writers : Nat} {accepted handed discarded : List Bytes}
    (uses : Uses queue writers accepted handed discarded) :
    writers ≤ 1 ∧ (queue.waiting ≠ none → writers = 1) ∧ ∃ fates : List (Bytes × Bool),
      accepted = fates.map Prod.fst ++ queue.waiting.toList ∧ handed = (fates.filter (·.2)).map Prod.fst ∧
      discarded = (fates.filter (!·.2)).map Prod.fst := by
  suffices inv : writers = queue.writing.toNat ∧ (queue.waiting ≠ none → queue.writing = true) ∧
      ∃ fates : List (Bytes × Bool), accepted = fates.map Prod.fst ++ queue.waiting.toList ∧
        handed = (fates.filter (·.2)).map Prod.fst ∧ discarded = (fates.filter (!·.2)).map Prod.fst by
    obtain ⟨rfl, held, fates⟩ := inv
    exact ⟨Bool.toNat_le _, fun waits => by rw [held waits]; rfl, fates⟩
  induction uses with
  | start => exact ⟨rfl, nofun, [], rfl, rfl, rfl⟩
  | @offer queue _ _ _ _ message _ ih =>
    obtain ⟨rfl, held, fates, rfl, rfl, rfl⟩ := ih
    obtain ⟨waiting, writing, counters⟩ := queue
    cases writing with
    | false =>
      obtain rfl : waiting = none := by_contra fun waits => absurd (held waits) nofun
      exact ⟨rfl, fun _ => rfl, fates, by simp [SendQueue.offer], rfl, rfl⟩
    | true =>
      cases waiting with
      | none => exact ⟨rfl, fun _ => rfl, fates, by simp [SendQueue.offer], rfl, rfl⟩
      | some => exact ⟨rfl, held, fates, rfl, rfl, rfl⟩
  | @next queue _ _ _ _ _ _ ih =>
    obtain ⟨rfl, held, fates, rfl, rfl, rfl⟩ := ih
    obtain ⟨waiting, writing, counters⟩ := queue
    cases waiting with
    | none => exact ⟨by cases writing <;> rfl, nofun, fates, rfl, by simp [nextForWriter], rfl⟩
    | some message => exact ⟨rfl, nofun, fates ++ [(message, true)], by simp [nextForWriter]⟩
  | @discard queue _ _ _ _ _ ih =>
    obtain ⟨rfl, held, fates, rfl, rfl, rfl⟩ := ih
    obtain ⟨waiting, writing, counters⟩ := queue
    refine ⟨rfl, nofun, fates ++ (waiting.map (·, false)).toList, ?_⟩
    cases waiting <;> simp [discardQueued]

/-- The first writer is handed two messages, one is refused while the next waits, one is discarded, and when the writer
has stopped a second one is started. -/
theorem fates_of_uses_two_writers : ∃ queue, queue.waiting = some [6] ∧
    Uses queue 1 [[1], [2], [4], [5], [6]] [[1], [2], [5]] [[4]] ∧ ∃ fates : List (Bytes × Bool),
      [[1], [2], [4], [5], [6]] = fates.map Prod.fst ++ [[6]] ∧ [[1], [2], [5]] = (fates.filter (·.2)).map Prod.fst ∧
      [[4]] = (fates.filter (!·.2)).map Prod.fst := by
  let queue : SendQueue := { waiting := some [6], writing := true, counters := { deferred := 3, refused := 1 } }
  have refused : Uses { waiting := some [2], writing := true, counters := { deferred := 1, refused := 1 } } 1
      [[1], [2]] [[1]] [] := .offer [3] (.offer [2] (.next (.offer [1] .start) Nat.one_pos))
  have discarded : Uses { writing := true, counters := { deferred := 2, refused := 1 } } 1
      [[1], [2], [4]] [[1], [2]] [[4]] := .discard (.offer [4] (.next refused Nat.one_pos))
  have uses : Uses queue 1 [[1], [2], [4], [5], [6]] [[1], [2], [5]] [[4]] :=
    .offer [6] (.next (.next (.offer [5] discarded) Nat.one_pos) Nat.one_pos)
  exact ⟨queue, rfl, uses, (fates_of_uses uses).2.2⟩

end SendQueue

end Smply.Transport

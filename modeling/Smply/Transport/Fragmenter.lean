import Smply.Smp.Assembler

namespace Smply.Transport

open Systems Smp List MessageAssembler

/-- A fragment is never empty: the constructor clamps it. -/
structure Fragmenter where
  message : Bytes
  fragment : Nat
  offset : Nat
  fragment_pos : 0 < fragment

namespace Fragmenter

def new (message : Bytes) (fragment : Nat) : Fragmenter where
  message := message
  fragment := if fragment = 0 then 1 else fragment
  offset := 0
  fragment_pos := by split <;> omega

def done (fragmenter : Fragmenter) : Bool := fragmenter.offset ≥ fragmenter.message.length

def remaining (fragmenter : Fragmenter) : Nat :=
  if fragmenter.done then 0 else fragmenter.message.length - fragmenter.offset

def next (fragmenter : Fragmenter) : Bytes × Fragmenter :=
  if fragmenter.done then
    ([], fragmenter)
  else
    let take := if fragmenter.remaining < fragmenter.fragment then fragmenter.remaining else fragmenter.fragment
    let piece := (fragmenter.message.drop fragmenter.offset).take take
    (piece, { fragmenter with offset := fragmenter.offset + take })

theorem next_remaining {fragmenter : Fragmenter} (more : ¬ fragmenter.done) :
    fragmenter.next.2.remaining = fragmenter.remaining - fragmenter.fragment := by
  have positive := fragmenter.fragment_pos
  simp only [next, remaining, done, ge_iff_le, decide_eq_true_eq] at more ⊢
  rw [if_neg more]
  simp only [if_neg more]
  split <;> split <;> omega

def fragments (fragmenter : Fragmenter) : List Bytes :=
  if fragmenter.done then [] else fragmenter.next.1 :: fragmenter.next.2.fragments
termination_by fragmenter.remaining
decreasing_by
  rename_i more
  have shrinks := next_remaining more
  have positive := fragmenter.fragment_pos
  simp only [remaining, done, ge_iff_le, decide_eq_true_eq] at more shrinks ⊢
  rw [if_neg more] at shrinks ⊢
  omega

section
variable (fragmenter : Fragmenter)
include fragmenter

theorem next_drop (more : ¬ fragmenter.done) :
    fragmenter.next.1 ++ fragmenter.next.2.message.drop fragmenter.next.2.offset =
      fragmenter.message.drop fragmenter.offset := by
  rw [next, if_neg more]
  simp only [← drop_drop, take_append_drop]

theorem fragments_flatten : fragmenter.fragments.flatten = fragmenter.message.drop fragmenter.offset := by
  fun_induction fragments fragmenter with
  | case1 fragmenter finished =>
    have past := of_decide_eq_true finished
    rw [flatten_nil, drop_eq_nil_of_le past]
  | case2 fragmenter more ih => rw [flatten_cons, ih, next_drop fragmenter more]

end

end Fragmenter

/-- The declared length is the payload's, and the assembler's limits admit the message. -/
structure Fits (limits : AssemblerLimits) (message : Header × Bytes) : Prop where
  declared : message.2.length = message.1.length.toNat
  payload : message.1.length ≤ limits.maxPayload
  total : message.1.totalSize ≤ limits.maxBuffer

def encodeMessage (message : Header × Bytes) : Bytes := encode message.1 ++ message.2

def Reassembles (limits : AssemblerLimits) (pieces : List Bytes) (messages : List (Header × Bytes)) : Prop :=
  (feedAll MessageAssembler.feed { limits := limits } pieces).messages = messages ∧
    (feedAll MessageAssembler.feed { limits := limits } pieces).result = .ok () ∧
    (feedAll MessageAssembler.feed { limits := limits } pieces).after.buffer = []

theorem front_encodeMessage {limits : AssemblerLimits} {message : Header × Bytes} (fits : Fits limits message)
    (rest : Bytes) : MessageAssembler.front limits (encodeMessage message ++ rest) = .message message rest := by
  obtain ⟨header, payload⟩ := message
  have declared := fits.declared
  have size : messageSize limits header = .ok header.totalSize := by
    have small := fits.payload
    have whole := fits.total
    rw [messageSize, if_neg (by simpa using small), if_neg (by simpa using whole)]
  have decoded : decodeHeader (encode header ++ payload ++ rest) = .ok header := by
    rw [append_assoc]
    exact decodeHeader_encode header (payload ++ rest)
  have lengths : (encode header ++ payload).length = header.totalSize := by
    rw [length_append, encode_length, declared, Header.totalSize]
  have found := front_whole decoded size (by rw [length_append, lengths]; omega)
  rw [encodeMessage, found, payload_append (by rw [lengths]; exact Nat.le_refl _)]
  rw [← lengths, drop_left, ← encode_length header, drop_left, ← declared, take_length]

theorem cut_reassembles {limits : AssemblerLimits} {messages : List (Header × Bytes)}
    (fit : ∀ message ∈ messages, Fits limits message) {pieces : List Bytes}
    (cut : pieces.flatten = (messages.map encodeMessage).flatten) : Reassembles limits pieces messages := by
  have parsed := (framing limits).parse_flatten encodeMessage messages
    fun message member rest => front_encodeMessage (fit message member) rest
  have fed := (feed_feeds limits).feedAll { limits := limits } ⟨rfl, rfl, rfl⟩ pieces
  rw [nil_append, cut, parsed] at fed
  exact ⟨fed.messages, fed.result, (fed.after [] rfl).2⟩

/-- Whatever the fragment sizes, or wherever the stream is cut, the receiver gets what was sent and keeps nothing. -/
theorem messages_reassembled (limits : AssemblerLimits) (messages : List (Header × Bytes))
    (fit : ∀ message ∈ messages, Fits limits message) :
    (∀ sized : List ((Header × Bytes) × Nat), sized.map Prod.fst = messages →
      Reassembles limits (sized.flatMap fun sent => (Fragmenter.new (encodeMessage sent.1) sent.2).fragments)
        messages) ∧
    ∀ pieces : List Bytes, pieces.flatten = (messages.map encodeMessage).flatten →
      Reassembles limits pieces messages := by
  refine ⟨?_, fun pieces cut => cut_reassembles fit cut⟩
  intro sized same
  apply cut_reassembles fit
  subst same
  clear fit
  induction sized with
  | nil => rfl
  | cons sent _ ih =>
    have whole : (Fragmenter.new (encodeMessage sent.1) sent.2).fragments.flatten = encodeMessage sent.1 :=
      Fragmenter.fragments_flatten _
    rw [flatMap_cons, flatten_append, whole, ih]
    rfl

def greeting : Header × Bytes := ({ op := .readResponse, length := 3, seq := 1 }, [1, 2, 3])

def farewell : Header × Bytes := ({ op := .writeResponse, version := .v2, seq := 2, command := 5 }, [])

theorem messages_reassembled_small : Reassembles {} ((Fragmenter.new (encodeMessage greeting) 4).fragments ++
        (Fragmenter.new (encodeMessage farewell) 0).fragments) [greeting, farewell] := by
  have fit : ∀ message ∈ [greeting, farewell], Fits {} message := by
    intro message member
    simp only [mem_cons, not_mem_nil, or_false] at member
    rcases member with rfl | rfl
    · exact ⟨by decide, by decide, by decide⟩
    · exact ⟨by decide, by decide, by decide⟩
  have both := (messages_reassembled {} [greeting, farewell] fit).1 [(greeting, 4), (farewell, 0)] rfl
  simpa using both

end Smply.Transport

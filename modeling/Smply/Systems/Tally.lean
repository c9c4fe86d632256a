import Mathlib

namespace Systems

open List

variable {α : Type} (p : α → Bool)

def tally (codes : List α) (held : Nat → Nat) : Nat :=
  (codes.zipIdx.map fun (code, number) => if p code then held number else 0).sum

theorem tally_concat (codes : List α) (code : α) (held : Nat → Nat) :
    tally p (codes ++ [code]) held = tally p codes held + if p code then held codes.length else 0 := by
  simp [tally, zipIdx_append]

theorem tally_none (codes : List α) (held : Nat → Nat) (none_ : ∀ code, p code = false) : tally p codes held = 0 := by
  induction codes using reverseRecOn with
  | nil => rfl
  | append_singleton _ _ ih =>
    rw [tally_concat, ih, none_]
    rfl

theorem tally_congr {codes : List α} {first second : Nat → Nat}
    (same : ∀ number < codes.length, first number = second number) : tally p codes first = tally p codes second := by
  induction codes using reverseRecOn with
  | nil => rfl
  | append_singleton codes _ ih =>
    rw [length_append, length_singleton] at same
    rw [tally_concat, tally_concat, ih fun number bound => same number (by omega), same codes.length (by omega)]

theorem tally_take {codes : List α} {place : Nat} {code : α} {before after : Nat → Nat}
    (found : codes[place]? = some code)
    (took : ∀ number < codes.length, before number = after number + if number = place then 1 else 0) :
    tally p codes before = tally p codes after + if p code then 1 else 0 := by
  induction codes using reverseRecOn with
  | nil => simp at found
  | append_singleton codes last ih =>
    rw [length_append, length_singleton] at took
    rw [tally_concat, tally_concat]
    by_cases here : place = codes.length
    · subst here
      obtain rfl : last = code := by simpa using found
      have earlier : tally p codes before = tally p codes after := by
        apply tally_congr p
        intro number bound
        have other : number ≠ codes.length := by omega
        have now := took number (by omega)
        rwa [if_neg other, Nat.add_zero] at now
      have now := took codes.length (by omega)
      rw [if_pos rfl] at now
      split <;> omega
    · have inside : place < codes.length := by
        have bound := (List.getElem?_eq_some_iff.mp found).1
        rw [length_append, length_singleton] at bound
        omega
      rw [getElem?_append_left inside] at found
      have earlier := ih found fun number bound => took number (by omega)
      have now := took codes.length (by omega)
      have other : codes.length ≠ place := by omega
      rw [if_neg other, Nat.add_zero] at now
      rw [earlier, now]
      omega

theorem held_le_tally {codes : List α} {place : Nat} {code : α} {held : Nat → Nat} (found : codes[place]? = some code)
    (meets : p code = true) : held place ≤ tally p codes held := by
  induction codes using reverseRecOn with
  | nil => simp at found
  | append_singleton codes last ih =>
    rw [tally_concat]
    by_cases here : place = codes.length
    · subst here
      obtain rfl : last = code := by simpa using found
      rw [if_pos meets]
      omega
    · have inside : place < codes.length := by
        have bound := (List.getElem?_eq_some_iff.mp found).1
        rw [length_append, length_singleton] at bound
        omega
      rw [getElem?_append_left inside] at found
      have earlier := ih found
      omega

theorem tally_split (q : α → Bool) (codes : List α) (held : Nat → Nat) :
    tally p codes held = tally (fun code => p code && q code) codes held +
      tally (fun code => p code && !q code) codes held := by
  induction codes using reverseRecOn with
  | nil => rfl
  | append_singleton _ code ih =>
    rw [tally_concat, tally_concat, tally_concat, ih]
    cases p code <;> cases q code <;> simp <;> omega

theorem tally_empty (codes : List α) {held : Nat → Nat} (empty : ∀ number, held number = 0) :
    tally p codes held = 0 := by
  induction codes using reverseRecOn with
  | nil => rfl
  | append_singleton _ _ ih => simp [tally_concat, ih, empty]

theorem split_concat {list first others : List α} {last u : α} (same : list ++ [last] = first ++ u :: others) :
    (∃ shorter, list = first ++ u :: shorter) ∨ list = first ∧ last = u := by
  rcases eq_nil_or_concat others with rfl | ⟨shorter, final, rfl⟩
  · obtain ⟨rfl, tail⟩ := append_inj' same rfl
    exact .inr ⟨rfl, head_eq_of_cons_eq tail⟩
  · have ends : list ++ [last] = (first ++ u :: shorter) ++ [final] := by simpa using same
    exact .inl ⟨shorter, (append_inj' ends rfl).1⟩

theorem countP_le_one {list : List α}
    (alone : ∀ first u others, list = first ++ u :: others → p u = true → ∀ v ∈ first, p v = false) :
    list.countP p ≤ 1 := by
  induction list using reverseRecOn with
  | nil => exact Nat.zero_le 1
  | append_singleton list last ih =>
    rw [countP_append, countP_singleton]
    by_cases meets : p last = true
    · have none_ : list.countP p = 0 := by
        rw [countP_eq_zero]
        intro v member
        rw [alone list last [] rfl meets v member]
        exact Bool.false_ne_true
      simp [none_, meets]
    · rw [if_neg meets]
      refine ih fun first u others same => alone first u (others ++ [last]) ?_
      rw [same]
      simp

end Systems

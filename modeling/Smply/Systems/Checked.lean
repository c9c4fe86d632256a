import Mathlib

namespace Systems

variable {holds : Prop} {ε α β : Type}

def Meets (Allowed : ε → Prop) (post : α → Prop) : Except ε α → Prop
  | .ok value => post value
  | .error error => Allowed error

def demand (holds : Prop) [Decidable holds] (error : ε) : Except ε Unit := if holds then .ok () else .error error

@[simp] theorem demand_true [Decidable holds] {error : ε} (yes : holds) :
    demand holds error = .ok () := if_pos yes

@[simp] theorem ok_bind (value : α) (next : α → Except ε β) : (Except.ok value >>= next) = next value := rfl

theorem bind_goes {first : Except ε α} {value : α} {next : α → Except ε β} {result : Except ε β}
    (found : first = .ok value) (rest : next value = result) : (first >>= next) = result := by
  rw [found, ok_bind, rest]

theorem demand_goes [Decidable holds] {error : ε} {next : Unit → Except ε β} {result : Except ε β}
    (yes : holds) (rest : next () = result) : (demand holds error >>= next) = result :=
  bind_goes (demand_true yes) rest

namespace Meets

variable {Allowed : ε → Prop} {post : α → Prop} {result : Except ε α}

theorem bind {last : β → Prop} {next : α → Except ε β} (first : Meets Allowed post result)
    (rest : ∀ value, post value → Meets Allowed last (next value)) : Meets Allowed last (result >>= next) := by
  cases result with
  | ok value => exact rest value first
  | error => exact first

theorem demand_bind [Decidable holds] {error : ε} {next : Unit → Except ε α} (allowed : Allowed error)
    (rest : holds → Meets Allowed post (next ())) : Meets Allowed post (demand holds error >>= next) := by
  by_cases yes : holds
  · rw [demand_true yes]
    exact rest yes
  · rw [demand, if_neg yes]
    exact allowed

section
variable (meets : Meets Allowed post result)
include meets

theorem mono {last : α → Prop} (weaker : ∀ value, post value → last value) : Meets Allowed last result := by
  cases result with
  | ok value => exact weaker value meets
  | error => exact meets

theorem of_ok {value : α} (done : result = .ok value) : post value := by
  rw [done] at meets
  exact meets

theorem of_error {error : ε} (failed : result = .error error) : Allowed error := by
  rw [failed] at meets
  exact meets

end

end Meets

end Systems

import Mathlib.Data.List.Basic

/-!
# The answers of a machine

A machine takes its inputs one at a time, answers each of them and goes on from a new state. All
that can be seen of a state is what the machine answers from then on. A **bisimulation** relates
states that answer every input alike and stay related, so no sequence of inputs tells related
states apart (`Machine.Bisimulation.answers_eq`).
-/

namespace Machine

variable {S T I O : Type*}

/-- The answers of a machine, from a state on, to a sequence of inputs. -/
def answers (step : S → I → O × S) : S → List I → List O
  | _, [] => []
  | s, input :: inputs => (step s input).1 :: answers step (step s input).2 inputs

/-- A relation between the states of two machines that no input can break or observe. -/
structure Bisimulation (step : S → I → O × S) (step' : T → I → O × T) (R : S → T → Prop) :
    Prop where
  answer : ∀ {s t}, R s t → ∀ input, (step s input).1 = (step' t input).1
  stays : ∀ {s t}, R s t → ∀ input, R (step s input).2 (step' t input).2

/-- **Related states cannot be told apart.** -/
theorem Bisimulation.answers_eq {step : S → I → O × S} {step' : T → I → O × T} {R : S → T → Prop}
    (h : Bisimulation step step' R) (inputs : List I) :
    ∀ {s t}, R s t → answers step s inputs = answers step' t inputs := by
  induction inputs with
  | nil =>
    intro s t _
    rfl
  | cons input inputs ih =>
    intro s t hst
    have hhere : (step s input).1 = (step' t input).1 := h.answer hst input
    have hlater := ih (h.stays hst input)
    rw [answers, answers, hhere, hlater]

end Machine

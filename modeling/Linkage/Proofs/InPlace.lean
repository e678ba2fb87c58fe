/-!
# Programs that write in place

The functions of this library return the state that they leave. The same operations can be written
as programs that check and write by turns on one state, where a write stays if a later check fails.
`Performs` says that such a program comes to what a function returns: then no failure comes after a
write.
-/

set_option autoImplicit false

namespace Linkage

/-- What a program has written stays, also if it fails later. -/
abbrev InPlace (ε σ α : Type) := ExceptT ε (StateM σ) α

namespace InPlace

variable {ε σ α β : Type} {program : InPlace ε σ α} {state middle : σ} {value : α} {fault : ε}

def on (program : InPlace ε σ α) (state : σ) : Except ε α × σ := program.run.run state

/-- Reads the state and writes nothing. -/
def ask (question : σ → Except ε α) : InPlace ε σ α :=
  ExceptT.mk fun state => (question state, state)

theorem on_bind_of_ok (first : program.on state = (.ok value, middle))
    (next : α → InPlace ε σ β) : (program >>= next).on state = (next value).on middle := by
  simp only [on, ExceptT.run_bind, StateT.run_bind] at first ⊢
  rw [first]
  rfl

theorem on_bind_of_error (first : program.on state = (.error fault, middle))
    (next : α → InPlace ε σ β) : (program >>= next).on state = (.error fault, middle) := by
  simp only [on, ExceptT.run_bind, StateT.run_bind] at first ⊢
  rw [first]
  rfl

theorem on_ask_bind_of_ok (state : σ) {question : σ → Except ε α}
    (answered : question state = .ok value) (next : α → InPlace ε σ β) :
    (ask question >>= next).on state = (next value).on state :=
  on_bind_of_ok (congrArg (·, state) answered) next

theorem on_ask_bind_of_error (state : σ) {question : σ → Except ε α}
    (answered : question state = .error fault) (next : α → InPlace ε σ β) :
    (ask question >>= next).on state = (.error fault, state) :=
  on_bind_of_error (congrArg (·, state) answered) next

/-- What the result of a function on states amounts to in place: the value and the state returned,
or the fault and the state as it was. -/
def effect (state : σ) : Except ε (α × σ) → Except ε α × σ
  | .ok (value, next) => (.ok value, next)
  | .error fault => (.error fault, state)

def Performs (program : InPlace ε σ α) (state : σ) (result : Except ε (α × σ)) : Prop :=
  program.on state = effect state result

namespace Performs

theorem ask (question : σ → Except ε α) (state : σ) :
    Performs (ask question) state ((question state).map fun answer => (answer, state)) := by
  change (question state, state) = _
  cases question state <;> rfl

/-- What follows a question finds the state as it was. -/
theorem ask_bind {question : σ → Except ε α} {next : α → InPlace ε σ β}
    {rest : α → Except ε (β × σ)}
    (performs : ∀ answer, question state = .ok answer →
      Performs (next answer) state (rest answer)) :
    Performs (InPlace.ask question >>= next) state (question state >>= rest) := by
  cases answered : question state with
  | error fault => exact on_ask_bind_of_error state answered next
  | ok answer => exact (on_ask_bind_of_ok state answered next).trans (performs answer answered)

theorem map {result : Except ε (α × σ)} (performs : Performs program state result)
    (change : α → β) :
    Performs (program >>= fun value => pure (change value)) state
      (result >>= fun found => .ok (change found.1, found.2)) := by
  cases result with
  | error fault => exact on_bind_of_error performs _
  | ok found => exact on_bind_of_ok performs _

end Performs

end InPlace

end Linkage

import Linkage.Event

/-!
# Traced computations

A traced computation has a result or an error, and the events that happened up to there. Its result
does not depend on the events: `result_bind` and its companions say that `result` takes a traced
computation to the same computation without events, and `events_bind` that the events of a sequence
are those of its parts in order.
-/

set_option autoImplicit false

namespace Linkage

/-- Events in the order in which they happen. Traces are joined without copying them. -/
inductive Trace where
  | empty
  | one (event : Event)
  | join (first second : Trace)

namespace Trace

@[inline]
def append : Trace → Trace → Trace
  | .empty, second => second
  | first, .empty => first
  | first, second => .join first second

instance traceAppend : Append Trace := ⟨append⟩

def before : Trace → List Event → List Event
  | .empty, later => later
  | .one event, later => event :: later
  | .join first second, later => first.before (second.before later)

def toList (trace : Trace) : List Event := trace.before []

def ofList : List Event → Trace
  | [] => .empty
  | event :: rest => .one event ++ ofList rest

theorem before_eq (trace : Trace) (later : List Event) :
    trace.before later = trace.toList ++ later := by
  induction trace generalizing later with
  | empty => rfl
  | one event => rfl
  | join first second first_ih second_ih =>
      have joined : (join first second).toList = first.toList ++ second.toList := first_ih _
      rw [before, first_ih, second_ih, joined, List.append_assoc]

@[simp]
theorem toList_empty : Trace.empty.toList = [] := rfl

@[simp]
theorem toList_one (event : Event) : (Trace.one event).toList = [event] := rfl

@[simp]
theorem toList_append (first second : Trace) :
    (first ++ second).toList = first.toList ++ second.toList := by
  have joined : (Trace.join first second).toList = first.toList ++ second.toList := by
    rw [toList, before, before_eq first]
    rfl
  change (first.append second).toList = _
  unfold append
  split
  · rfl
  · exact (List.append_nil _).symm
  · exact joined

@[simp]
theorem toList_ofList (events : List Event) : (ofList events).toList = events := by
  induction events with
  | nil => rfl
  | cons event rest ih => rw [ofList, toList_append, ih, toList_one, List.singleton_append]

end Trace

structure Traced (ε α : Type) where
  trace : Trace
  result : Except ε α

namespace Traced

variable {ε δ α β : Type}

def events (run : Traced ε α) : List Event := run.trace.toList

@[inline]
def ofExcept (result : Except ε α) : Traced ε α := ⟨.empty, result⟩

@[inline]
def andThen (first : Traced ε α) (second : α → Traced ε β) : Traced ε β :=
  match first.result with
  | .error error => ⟨first.trace, .error error⟩
  | .ok value =>
      let next := second value
      ⟨first.trace ++ next.trace, next.result⟩

instance monad : Monad (Traced ε) where
  pure value := ofExcept (.ok value)
  bind := andThen

@[inline]
def emit (event : Event) : Traced ε Unit := ⟨.one event, .ok ()⟩

def mapError (change : ε → δ) (run : Traced ε α) : Traced δ α :=
  ⟨run.trace, run.result.mapError change⟩

/-- The computation without its events, unless somebody listens to them. -/
def heard (listening : Bool) (run : Traced ε α) : Traced ε α :=
  if listening then run else ofExcept run.result

@[simp]
theorem result_pure (value : α) : (pure value : Traced ε α).result = .ok value := rfl

@[simp]
theorem events_pure (value : α) : (pure value : Traced ε α).events = [] := rfl

@[simp]
theorem result_ofExcept (result : Except ε α) : (ofExcept result).result = result := rfl

@[simp]
theorem events_ofExcept (result : Except ε α) : (ofExcept result).events = [] := rfl

@[simp]
theorem result_emit (event : Event) : (emit event : Traced ε Unit).result = .ok () := rfl

@[simp]
theorem events_emit (event : Event) : (emit event : Traced ε Unit).events = [event] := rfl

@[simp]
theorem result_heard (listening : Bool) (run : Traced ε α) :
    (run.heard listening).result = run.result := by
  unfold heard
  split <;> rfl

theorem bind_of_ok {first : Traced ε α} {value : α} (success : first.result = .ok value)
    (second : α → Traced ε β) :
    first >>= second = ⟨first.trace ++ (second value).trace, (second value).result⟩ := by
  change first.andThen second = _
  rw [andThen, success]

theorem bind_of_error {first : Traced ε α} {error : ε} (failure : first.result = .error error)
    (second : α → Traced ε β) : first >>= second = ⟨first.trace, .error error⟩ := by
  change first.andThen second = _
  rw [andThen, failure]

/-- The result of a sequence is the sequence of the results. -/
@[simp]
theorem result_bind (first : Traced ε α) (second : α → Traced ε β) :
    (first >>= second).result = first.result >>= fun value => (second value).result := by
  cases outcome : first.result with
  | error error => rw [bind_of_error outcome]; rfl
  | ok value => rw [bind_of_ok outcome]; rfl

/-- The events of a sequence are those of its parts, as far as it gets. -/
theorem events_bind (first : Traced ε α) (second : α → Traced ε β) :
    (first >>= second).events =
      first.events ++ match first.result with
        | .error _ => []
        | .ok value => (second value).events := by
  cases outcome : first.result with
  | error error => rw [bind_of_error outcome]; exact (List.append_nil _).symm
  | ok value => rw [bind_of_ok outcome]; exact Trace.toList_append _ _

end Traced

end Linkage

/-!
# Searches that remember

A search looks for the first fault among many cases, of which the same may occur many times. It is
given cases known to be free of faults, which it skips, and hands them on together with those that
it has settled itself. What it is given makes no difference to what it finds: `Finds` says so, and
there is one lemma for each way to put searches together.
-/

set_option autoImplicit false

namespace Linkage

/-- A search for a fault, from settled cases to the fault or to more settled cases. -/
abbrev Search (ε α : Type) := List α → Except ε (List α)

namespace Search

variable {ε δ α β : Type}

def ofOption : Option ε → Search ε α
  | none => .ok
  | some fault => fun _ => .error fault

/-- Adds a settled case. The memory is small and starts afresh when it is full. -/
def remember (case : α) (settled : List α) : List α :=
  if settled.length < 100 then case :: settled else [case]

def settle [DecidableEq α] (case : α) (search : Search ε α) : Search ε α := fun settled =>
  if case ∈ settled then .ok settled else (search settled).map (remember case)

def inOrder (search : β → Search ε α) (parts : List β) : Search ε α := fun settled =>
  parts.foldlM (fun settled part => search part settled) settled

/-- The fault that a search finds if nothing is settled before. -/
def fault? (search : Search ε α) : Option ε :=
  match search [] with
  | .ok _ => none
  | .error fault => some fault

theorem mem_remember {case other : α} {settled : List α}
    (inside : other ∈ remember case settled) : other = case ∨ other ∈ settled := by
  unfold remember at inside
  split at inside
  · exact List.mem_cons.mp inside
  · exact Or.inl (List.mem_singleton.mp inside)

/-- What a search comes to if its answer is the given one: the fault, or cases free of faults. -/
def Reaches (free : α → Prop) (outcome : Except ε (List α)) : Option ε → Prop
  | none => ∃ settled, outcome = .ok settled ∧ ∀ case ∈ settled, free case
  | some fault => outcome = .error fault

/-- A search comes to the same answer whatever cases free of faults it is given. -/
def Finds (free : α → Prop) (search : Search ε α) (answer : Option ε) : Prop :=
  ∀ settled, (∀ case ∈ settled, free case) → Reaches free (search settled) answer

variable {free : α → Prop}

theorem Finds.fault?_eq {search : Search ε α} {answer : Option ε}
    (finds : Finds free search answer) : search.fault? = answer := by
  have reached := finds [] fun _ inside => absurd inside List.not_mem_nil
  unfold fault?
  cases answer with
  | none =>
      obtain ⟨settled, success, _⟩ := reached
      rw [success]
  | some fault => rw [show search [] = .error fault from reached]

theorem finds_ofOption (answer : Option ε) : Finds free (ofOption answer) answer := by
  intro settled allFree
  cases answer with
  | none => exact ⟨settled, rfl, allFree⟩
  | some fault => rfl

theorem Finds.mapError {search : Search ε α} {answer : Option ε} (finds : Finds free search answer)
    (change : ε → δ) :
    Finds free (fun settled => (search settled).mapError change) (answer.map change) := by
  intro settled allFree
  have reached := finds settled allFree
  cases answer with
  | none =>
      obtain ⟨more, success, moreFree⟩ := reached
      exact ⟨more, by simp only [success]; rfl, moreFree⟩
  | some fault =>
      simp only [show search settled = .error fault from reached]
      rfl

/-- Of two searches one after the other the first fault counts. -/
theorem Finds.bind {first second : Search ε α} {answer later : Option ε}
    (finds : Finds free first answer) (next : Finds free second later) :
    Finds free (fun settled => first settled >>= second) (answer.or later) := by
  intro settled allFree
  have reached := finds settled allFree
  cases answer with
  | none =>
      obtain ⟨more, success, moreFree⟩ := reached
      simp only [success]
      exact next more moreFree
  | some fault =>
      simp only [show first settled = .error fault from reached]
      rfl

theorem finds_inOrder {search : β → Search ε α} {answer : β → Option ε} {parts : List β}
    (each : ∀ part ∈ parts, Finds free (search part) (answer part)) :
    Finds free (inOrder search parts) (parts.findSome? answer) := by
  induction parts with
  | nil => exact fun settled allFree => ⟨settled, rfl, allFree⟩
  | cons part rest ih =>
      have first := each part List.mem_cons_self
      have others := ih fun part later => each part (List.mem_cons_of_mem _ later)
      intro settled allFree
      have reached := first.bind others settled allFree
      rw [List.findSome?_cons]
      cases found : answer part with
      | none => rw [found] at reached; exact reached
      | some fault => rw [found] at reached; exact reached

/-- A case may be skipped if it is settled, and remembered if no fault is found in it. -/
theorem Finds.settle [DecidableEq α] {case : α} {search : Search ε α} {answer : Option ε}
    (finds : Finds free search answer) (decides : free case ↔ answer = none) :
    Finds free (settle case search) answer := by
  intro settled allFree
  unfold Search.settle
  split
  next known =>
    rw [decides.mp (allFree case known)]
    exact ⟨settled, rfl, allFree⟩
  next =>
    have reached := finds settled allFree
    cases answer with
    | none =>
        obtain ⟨more, success, moreFree⟩ := reached
        refine ⟨remember case more, by rw [success]; rfl, ?_⟩
        intro other inside
        rcases mem_remember inside with first | later
        · exact first ▸ decides.mpr rfl
        · exact moreFree other later
    | some fault =>
        rw [show search settled = .error fault from reached]
        rfl

/-- With nothing settled before, a case is searched. -/
theorem fault?_settle [DecidableEq α] (case : α) (search : Search ε α) :
    (settle case search).fault? = search.fault? := by
  unfold fault? settle
  rw [if_neg List.not_mem_nil]
  cases search [] <;> rfl

end Search

end Linkage

import Mathlib.Data.List.Chain
import Linkage.Proofs.FailureSite
import Linkage.Proofs.Safety

/-!
# Transcripts

The events of a check can be read without the modules that were checked. A reader keeps the scopes
that are open (`Reading`), takes an event only from the innermost of them, and expects a module that
was closed to be declared at once in the module around it, with the type it was closed with
(`Reading.next`). The events of every check can be read in this way. If the check succeeds, nothing
failed and every definition was visited once, in the order of the tree (`Completes`); if it fails,
the scopes that are open at that moment fail from the inside out (`Collapses`).
-/

set_option autoImplicit false

namespace Linkage

/-! ## Readers -/

structure Place where
  depth : Nat
  path : Path
deriving DecidableEq

namespace Place

def event (place : Place) (event : ScopeEvent) : Event := .scope place.depth place.path event

def holds (place : Place) : Place → Bool
  | ⟨depth, .nested outer _⟩ => depth = place.depth + 1 && outer = place.path
  | ⟨_, .root _⟩ => false

end Place

/-- What a scope declares by itself; a module is declared by the scope around it. -/
def ScopeEvent.isDeclaration : ScopeEvent → Bool
  | .declaredType _ _ | .declaredImport _ _ _ | .declaredInstance _ _ | .declaredExport _ _ => true
  | .aliasedExport _ _ _ | .aliasedOuter _ _ _ _ => true
  | _ => false

def LinkEvent.isWithin (context : Name) : LinkEvent → Bool
  | .instantiating place _ | .instantiated place _ => place = context
  | .matched _ _ _ | .ignored _ => true
  | _ => false

/-- What a reader knows: the scopes that are open, from the inside out, and the type of the module
that was closed last, until it is declared. -/
structure Reading where
  scopes : List Place
  closed : Option ModuleType := none
deriving DecidableEq

namespace Reading

/-- Reads an event of the innermost open scope, other than its start. -/
def tell (place : Place) (around : List Place) : Option ModuleType → ScopeEvent → Option Reading
  | none, .finished type => some ⟨around, some type⟩
  | none, .failed _ => some ⟨around, none⟩
  | none, .visiting _ => some ⟨place :: around, none⟩
  | some closed, .declaredModule _ type =>
      if type = closed then some ⟨place :: around, none⟩ else none
  | none, event => if event.isDeclaration then some ⟨place :: around, none⟩ else none
  | some _, _ => none

def next : Reading → Event → Option Reading
  | ⟨place :: around, none⟩, .scope depth path .started =>
      if place.holds ⟨depth, path⟩ then some ⟨⟨depth, path⟩ :: place :: around, none⟩ else none
  | ⟨place :: around, closed⟩, .scope depth path event =>
      if place = ⟨depth, path⟩ then tell place around closed event else none
  | ⟨place :: around, none⟩, .link event =>
      if event.isWithin place.path.text then some ⟨place :: around, none⟩ else none
  | _, _ => none

def after (reading : Reading) (events : List Event) : Option Reading :=
  events.foldlM next reading

abbrev Stacked (scopes : List Place) : Prop := scopes.IsChain fun inner outer => outer.holds inner

end Reading

def Event.failure? : Event → Option ValidationError
  | .scope _ _ (.failed error) => some error
  | _ => none

def Event.visited? : Event → Option (Nat × Definition)
  | .scope depth _ (.visiting definition) => some (depth, definition)
  | _ => none

namespace Definition

mutual

def within (depth : Nat) : Definition → List (Nat × Definition)
  | .nested _ definitions => inOrder (depth + 1) definitions
  | _ => []

/-- All definitions of a tree with their depths, each before those inside of it. -/
def inOrder (depth : Nat) : List Definition → List (Nat × Definition)
  | [] => []
  | definition :: rest => (depth, definition) :: (definition.within depth ++ inOrder depth rest)

end

end Definition

structure Completes (place : Place) (definitions : List Definition) (type : ModuleType)
    (events : List Event) : Prop where
  bracketed : ∃ rest, events = place.event .started :: rest ∧
    ∀ around, Reading.after ⟨place :: around, none⟩ rest = some ⟨around, some type⟩
  failures : events.filterMap Event.failure? = []
  visits : events.filterMap Event.visited? = Definition.inOrder place.depth definitions

/-- The events of a module that was refused with an error: it fails in the scope that the error
names, and then in the scopes around that one up to its own. -/
structure Collapses (place : Place) (error : ValidationError) (events : List Event) : Prop where
  bracketed : ∃ rest, events = place.event .started :: rest ∧
    ∀ around, Reading.after ⟨place :: around, none⟩ rest = some ⟨around, none⟩
  unwinds : ∃ before chain,
    events = place.event .started :: (before ++ chain.map (·.event (.failed error))) ∧
    (∀ around, Reading.after ⟨place :: around, none⟩ before = some ⟨chain ++ around, none⟩) ∧
    before.filterMap Event.failure? = [] ∧
    chain.head?.map (·.path.text) = some error.path ∧ chain.getLast? = some place ∧
    Reading.Stacked chain

namespace Reading

variable {reading middle later : Reading} {first second : List Event} {event : Event}
  {place : Place} {around : List Place}

theorem after_append (here : reading.after first = some middle)
    (there : middle.after second = some later) : reading.after (first ++ second) = some later := by
  rw [after, List.foldlM_append]
  exact (congrArg (· >>= _) here).trans there

theorem after_cons (here : reading.next event = some middle)
    (there : middle.after second = some later) : reading.after (event :: second) = some later := by
  rw [after, List.foldlM_cons]
  exact (congrArg (· >>= _) here).trans there

theorem next_started {inner : Place} (inside : place.holds inner = true) :
    next ⟨place :: around, none⟩ (inner.event .started) = some ⟨inner :: place :: around, none⟩ :=
  if_pos inside

theorem next_finished (type : ModuleType) :
    next ⟨place :: around, none⟩ (place.event (.finished type)) = some ⟨around, some type⟩ :=
  if_pos rfl

theorem next_failed (error : ValidationError) :
    next ⟨place :: around, none⟩ (place.event (.failed error)) = some ⟨around, none⟩ :=
  if_pos rfl

theorem next_visiting (definition : Definition) :
    next ⟨place :: around, none⟩ (place.event (.visiting definition)) =
      some ⟨place :: around, none⟩ :=
  if_pos rfl

theorem next_declaredModule (index : Nat) (type : ModuleType) :
    next ⟨place :: around, some type⟩ (place.event (.declaredModule index type)) =
      some ⟨place :: around, none⟩ :=
  (if_pos rfl).trans (if_pos rfl)

/-- Scopes that fail one after the other from the inside out are closed. -/
theorem after_failed (error : ValidationError) (chain around : List Place) :
    after ⟨chain ++ around, none⟩ (chain.map (·.event (.failed error))) = some ⟨around, none⟩ := by
  induction chain with
  | nil => rfl
  | cons place rest ih => exact after_cons (next_failed error) ih

/-! ## Open scopes stand in each other -/

theorem scopes_tell {closed : Option ModuleType} {event : ScopeEvent}
    (read : tell place around closed event = some later) :
    later.scopes = around ∨ later.scopes = place :: around := by
  unfold tell at read
  split at read
  case h_1 type =>
    cases read
    exact .inl rfl
  case h_2 error =>
    cases read
    exact .inl rfl
  case h_3 definition =>
    cases read
    exact .inr rfl
  case h_4 closed index type =>
    split at read
    · cases read
      exact .inr rfl
    · cases read
  case h_5 event _ _ _ =>
    split at read
    · cases read
      exact .inr rfl
    · cases read
  case h_6 => cases read

theorem stacked_next (stacked : Stacked reading.scopes) (read : reading.next event = some later) :
    Stacked later.scopes := by
  unfold next at read
  split at read
  case h_1 place around depth path =>
    split at read
    · next inside =>
      cases read
      exact .cons_cons inside stacked
    · cases read
  case h_2 place around closed depth path event _ =>
    split at read
    · rcases scopes_tell read with popped | kept
      · rw [popped]
        exact stacked.tail
      · rw [kept]
        exact stacked
    · cases read
  case h_3 place around event =>
    split at read
    · cases read
      exact stacked
    · cases read
  case h_4 => cases read

theorem stacked_after (stacked : Stacked reading.scopes)
    (read : reading.after first = some later) : Stacked later.scopes := by
  induction first generalizing reading with
  | nil =>
      cases read
      exact stacked
  | cons event rest ih =>
      rw [after, List.foldlM_cons] at read
      obtain ⟨middle, here, there⟩ := Option.bind_eq_some_iff.mp read
      exact ih (stacked_next stacked here) there

end Reading

/-! ## What a definition without a module reports -/

namespace Traced

variable {ε α β : Type} {allowed : Event → Prop}

theorem events_bind_of_ok {first : Traced ε α} {value : α} (success : first.result = .ok value)
    (second : α → Traced ε β) :
    (first >>= second).events = first.events ++ (second value).events := by
  rw [events_bind, success]

theorem events_bind_of_error {first : Traced ε α} {error : ε}
    (failure : first.result = .error error) (second : α → Traced ε β) :
    (first >>= second).events = first.events := by
  rw [events_bind, failure, List.append_nil]

def Emits (allowed : Event → Prop) (run : Traced ε α) : Prop := ∀ event ∈ run.events, allowed event

theorem Emits.ofExcept (result : Except ε α) : (Traced.ofExcept result).Emits allowed := by
  intro event inside
  exact absurd inside List.not_mem_nil

theorem Emits.pure (value : α) : (Pure.pure value : Traced ε α).Emits allowed :=
  .ofExcept (.ok value)

theorem Emits.emit {event : Event} (fine : allowed event) :
    (Traced.emit event : Traced ε Unit).Emits allowed := by
  intro other inside
  exact List.mem_singleton.mp inside ▸ fine

theorem Emits.bind {first : Traced ε α} {second : α → Traced ε β} (here : first.Emits allowed)
    (later : ∀ value, (second value).Emits allowed) : (first >>= second).Emits allowed := by
  intro event inside
  cases outcome : first.result with
  | error error =>
      rw [events_bind_of_error outcome] at inside
      exact here event inside
  | ok value =>
      rw [events_bind_of_ok outcome] at inside
      rcases List.mem_append.mp inside with before | behind
      · exact here event before
      · exact later value event behind

end Traced

inductive Place.Tells (place : Place) : Event → Prop where
  | declaration {event : ScopeEvent} (declares : event.isDeclaration = true) :
      Tells place (place.event event)
  | link {event : LinkEvent} (within : event.isWithin place.path.text = true) :
      Tells place (.link event)

namespace Place.Tells

variable {place : Place} {event : Event} {events : List Event}

theorem next (tells : place.Tells event) (around : List Place) :
    Reading.next ⟨place :: around, none⟩ event = some ⟨place :: around, none⟩ := by
  cases tells with
  | @declaration event declares =>
      cases event with
      | started | finished | failed | visiting | declaredModule => cases declares
      | _ => exact if_pos rfl
  | link within => exact if_pos within

theorem after (tells : ∀ event ∈ events, place.Tells event) (around : List Place) :
    Reading.after ⟨place :: around, none⟩ events = some ⟨place :: around, none⟩ := by
  induction events with
  | nil => rfl
  | cons event rest ih =>
      rw [List.forall_mem_cons] at tells
      exact Reading.after_cons (tells.1.next around) (ih tells.2)

theorem failure?_eq_none (tells : place.Tells event) : event.failure? = none := by
  cases tells with
  | @declaration event declares =>
      cases event with
      | failed => cases declares
      | _ => rfl
  | link => rfl

theorem visited?_eq_none (tells : place.Tells event) : event.visited? = none := by
  cases tells with
  | @declaration event declares =>
      cases event with
      | visiting => cases declares
      | _ => rfl
  | link => rfl

end Place.Tells

namespace Scope

def place (scope : Scope) (outer : List Enclosing) : Place := ⟨outer.length, scope.path⟩

theorem holds_place (scope : Scope) (outer : List Enclosing) (name : Name) :
    (scope.place outer).holds ⟨(scope.seen :: outer).length, scope.nestedPath name⟩ = true := by
  simp [Place.holds, place, nestedPath]

open Traced Place

variable (scope : Scope) (outer : List Enclosing)

theorem emits_report {event : ScopeEvent} (declares : event.isDeclaration = true) :
    (scope.report outer event).Emits (scope.place outer).Tells :=
  .emit (.declaration declares)

theorem emits_addType (type : TypeExpr) :
    (scope.addType outer type).Emits (scope.place outer).Tells := by
  refine .bind (.ofExcept _) fun item => .bind (.ofExcept _) ?_
  rintro ⟨index, next⟩
  exact .bind (scope.emits_report outer rfl) fun _ => .pure next

theorem emits_addImport (name : Name) (type : TypeExpr) :
    (scope.addImport outer name type).Emits (scope.place outer).Tells := by
  refine .bind (.ofExcept _) fun item => .bind (.ofExcept _) ?_
  rintro ⟨index, next⟩
  exact .bind (scope.emits_report outer rfl) fun _ => .pure next

theorem emits_addInstance (type : InstanceType) :
    (scope.addInstance outer type).Emits (scope.place outer).Tells := by
  refine .bind (.ofExcept _) ?_
  rintro ⟨index, next⟩
  exact .bind (scope.emits_report outer rfl) fun _ => .pure next

theorem emits_addTuple (exports : List (Name × ItemRef)) :
    (scope.addTuple outer exports).Emits (scope.place outer).Tells := by
  refine .bind (.ofExcept _) fun _ => .bind (.ofExcept _) fun items => ?_
  exact .bind (.ofExcept _) fun type => scope.emits_addInstance outer type

theorem emits_addExport (name : Name) (item : ItemRef) :
    (scope.addExport outer name item).Emits (scope.place outer).Tells := by
  refine .bind (.ofExcept _) fun type => .bind (.ofExcept _) fun next => ?_
  exact .bind (scope.emits_report outer rfl) fun _ => .pure next

theorem emits_aliasExport (target : ExportAlias) :
    (scope.aliasExport outer target).Emits (scope.place outer).Tells := by
  refine .bind (.ofExcept _) fun item => .bind (.ofExcept _) ?_
  rintro ⟨index, next⟩
  exact .bind (scope.emits_report outer rfl) fun _ => .pure (index, next)

theorem emits_aliasOuter (target : OuterAlias) :
    (scope.aliasOuter outer target).Emits (scope.place outer).Tells := by
  refine .bind (.ofExcept _) ?_
  rintro ⟨kind, ancestor, item⟩
  refine .bind (.ofExcept _) ?_
  rintro ⟨index, next⟩
  exact .bind (scope.emits_report outer rfl) fun _ => .pure (index, next)

theorem emits_checkImports (place : Place) (context : Name) (arguments : Arguments)
    (imports : InstanceType) :
    (Instantiation.checkImports context arguments imports).Emits place.Tells := by
  induction imports with
  | nil => exact .pure ()
  | cons entry rest ih =>
      exact .bind (.ofExcept _) fun argument => .bind (.emit (.link rfl)) fun _ => ih

theorem emits_instantiate (place : Place) (type : ModuleType) (arguments : Arguments) :
    (type.instantiate place.path.text arguments).Emits place.Tells := by
  have opening : LinkEvent.isWithin place.path.text (.instantiating place.path.text type) = true :=
    decide_eq_true rfl
  have closing :
      LinkEvent.isWithin place.path.text (.instantiated place.path.text type.exports) = true :=
    decide_eq_true rfl
  refine .bind (.emit (.link opening)) fun _ => .bind (.ofExcept _) fun _ => ?_
  refine .bind (emits_checkImports place _ arguments _) fun _ => .bind ?_ fun _ => ?_
  · intro event inside
    rw [events, Trace.toList_ofList, Instantiation.ignored] at inside
    obtain ⟨argument, _, same⟩ := List.mem_map.mp inside
    exact same ▸ .link rfl
  · exact .bind (.emit (.link closing)) fun _ => .pure _

theorem emits_addInstantiation (moduleIndex : Nat) (arguments : List (Name × ItemRef)) :
    (scope.addInstantiation outer moduleIndex arguments).Emits (scope.place outer).Tells := by
  refine .bind (.ofExcept _) fun _ => .bind (.ofExcept _) fun type => ?_
  refine .bind (.ofExcept _) fun items => .bind ?_ fun exports => ?_
  · exact emits_instantiate (scope.place outer) type items
  · exact scope.emits_addInstance outer exports

end Scope

/-! ## The events of a definition -/

structure Passes (place : Place) (visits : List (Nat × Definition)) (events : List Event) :
    Prop where
  reads : ∀ around,
    Reading.after ⟨place :: around, none⟩ events = some ⟨place :: around, none⟩
  failures : events.filterMap Event.failure? = []
  visits : events.filterMap Event.visited? = visits

/-- The events of definitions of a module, the last of which was refused. The scopes of a chain
inside of the module have failed; the one of the module itself is still open. -/
structure Breaks (place : Place) (error : ValidationError) (before : List Event)
    (chain : List Place) (events : List Event) : Prop where
  split : events = before ++ chain.map (·.event (.failed error))
  reads : ∀ around,
    Reading.after ⟨place :: around, none⟩ before = some ⟨chain ++ place :: around, none⟩
  failures : before.filterMap Event.failure? = []
  innermost : (chain ++ [place]).head?.map (·.path.text) = some error.path

theorem Passes.append {place : Place} {visits others : List (Nat × Definition)}
    {events later : List Event} (first : Passes place visits events)
    (second : Passes place others later) : Passes place (visits ++ others) (events ++ later) where
  reads around := Reading.after_append (first.reads around) (second.reads around)
  failures := by rw [List.filterMap_append, first.failures, second.failures, List.append_nil]
  visits := by rw [List.filterMap_append, first.visits, second.visits]

theorem Passes.visiting (place : Place) (definition : Definition) :
    Passes place [(place.depth, definition)] [place.event (.visiting definition)] where
  reads _ := Reading.after_cons (Reading.next_visiting definition) rfl
  failures := rfl
  visits := rfl

theorem Passes.of_tells {place : Place} {events : List Event}
    (tells : ∀ event ∈ events, place.Tells event) : Passes place [] events where
  reads := Place.Tells.after tells
  failures := List.filterMap_eq_nil_iff.mpr fun event inside =>
    (tells event inside).failure?_eq_none
  visits := List.filterMap_eq_nil_iff.mpr fun event inside =>
    (tells event inside).visited?_eq_none

theorem Breaks.behind {place : Place} {visits : List (Nat × Definition)} {error : ValidationError}
    {events before later : List Event} {chain : List Place} (first : Passes place visits events)
    (second : Breaks place error before chain later) :
    Breaks place error (events ++ before) chain (events ++ later) where
  split := by rw [second.split, List.append_assoc]
  reads around := Reading.after_append (first.reads around) (second.reads around)
  failures := by rw [List.filterMap_append, first.failures, second.failures, List.append_nil]
  innermost := second.innermost

/-- A module that was accepted is declared in the module around it. -/
theorem Completes.passes {place inner : Place} {definitions : List Definition} {type : ModuleType}
    {events : List Event} (completes : Completes inner definitions type events)
    (inside : place.holds inner = true) (index : Nat) :
    Passes place (Definition.inOrder inner.depth definitions)
      (events ++ [place.event (.declaredModule index type)]) := by
  obtain ⟨rest, same, reads⟩ := completes.bracketed
  constructor
  case reads =>
    intro around
    subst same
    exact Reading.after_append (Reading.after_cons (Reading.next_started inside) (reads _))
      (Reading.after_cons (Reading.next_declaredModule index type) rfl)
  case failures =>
    rw [List.filterMap_append, completes.failures]
    rfl
  case visits =>
    rw [List.filterMap_append, completes.visits]
    exact List.append_nil _

/-- A module that was refused breaks the module around it. -/
theorem Collapses.breaks {place inner : Place} {error : ValidationError} {events : List Event}
    (collapses : Collapses inner error events) (inside : place.holds inner = true) :
    ∃ before chain, Breaks place error before chain events := by
  obtain ⟨before, chain, same, reads, failures, innermost, _, _⟩ := collapses.unwinds
  -- The module failed at the end of its own chain; the scope around it is the only one left open.
  refine ⟨inner.event .started :: before, chain, same, fun around => ?_, failures, ?_⟩
  · exact Reading.after_cons (Reading.next_started inside) (reads _)
  · cases chain with
    | nil => cases innermost
    | cons head rest => exact innermost

/-! ## The events of a module -/

namespace Validation

variable {options : Options} {outer : List Enclosing} {scope next : Scope} {path : Path}
  {definition : Definition} {definitions : List Definition} {type : ModuleType}
  {error : ValidationError} {body : Scope → Traced Fault Scope}

/-- A check without its opening bracket, and without the one that closes it where it fails. -/
def steps (options : Options) (outer : List Enclosing) (path : Path)
    (body : Scope → Traced Fault Scope) : Traced Fault ModuleType := do
  .ofExcept (checkNesting options outer (.opened path))
  let filled ← body (.opened path)
  let (type, _) ← .ofExcept filled.freeze
  (Scope.opened path).report outer (.finished type)
  return type

theorem events_inScope (listened : options.listening = true) :
    (inScope options outer path body).events =
      .scope outer.length path .started ::
        (reportingFailure outer.length path (steps options outer path body)).events := by
  have opened : (Traced.ofExcept (Scope.start { path := path })).result = .ok (.opened path) := rfl
  have started : ((Scope.opened path).report outer .started).result = .ok () := rfl
  rw [inScope, Traced.heard, if_pos listened, Traced.events_bind_of_ok opened,
    Traced.events_bind_of_ok started]
  rfl

theorem events_inScope_of_ok (listened : options.listening = true)
    (accepted : (inScope options outer path body).result = .ok type) :
    (inScope options outer path body).events =
      .scope outer.length path .started ::
        ((body (.opened path)).events ++ [.scope outer.length path (.finished type)]) := by
  obtain ⟨shallow, filled, run, freezes⟩ := inScope_eq_ok_iff.mp accepted
  obtain ⟨frozen, freezes⟩ := freeze_eq_ok_iff.mpr freezes
  have nests : (Traced.ofExcept (checkNesting options outer (.opened path))).result = .ok () :=
    checkNesting_eq_ok_iff.mpr shallow
  have closes : (Traced.ofExcept filled.freeze).result = .ok (type, frozen) := freezes
  have finished : ((Scope.opened path).report outer (.finished type)).result = .ok () := rfl
  have result : (steps options outer path body).result = .ok type := by
    rw [steps, Traced.bind_of_ok nests, Traced.bind_of_ok run, Traced.bind_of_ok closes]
    rfl
  have events : (steps options outer path body).events =
      (body (.opened path)).events ++ [.scope outer.length path (.finished type)] := by
    rw [steps, Traced.events_bind_of_ok nests, Traced.events_bind_of_ok run,
      Traced.events_bind_of_ok closes, Traced.events_bind_of_ok finished]
    rfl
  rw [events_inScope listened, reportingFailure, result, events]

theorem events_reportingFailure {α : Type} {depth : Nat} {run : Traced Fault α}
    (failed : run.result = .error (.invalid error)) :
    (reportingFailure depth path run).events =
      run.events ++ [.scope depth path (.failed error)] := by
  rw [reportingFailure, failed]
  exact Trace.toList_append _ _

theorem events_inScope_of_deep (listened : options.listening = true)
    (deep : options.nesting < outer.length) :
    (inScope options outer path body).events =
      [.scope outer.length path .started, .scope outer.length path
        (.failed ⟨path.text, .nesting outer.length options.nesting⟩)] := by
  have tooDeep : (Traced.ofExcept (checkNesting options outer (.opened path))).result =
      .error (.invalid ⟨path.text, .nesting outer.length options.nesting⟩) :=
    if_neg (Nat.not_le_of_lt deep)
  have failed : (steps options outer path body).result = _ :=
    congrArg Traced.result (Traced.bind_of_error tooDeep _)
  rw [events_inScope listened, events_reportingFailure failed, steps,
    Traced.events_bind_of_error tooDeep]
  rfl

theorem events_inScope_of_refused (listened : options.listening = true)
    (shallow : outer.length ≤ options.nesting)
    (refused : (body (.opened path)).result = .error (.invalid error)) :
    (inScope options outer path body).events =
      .scope outer.length path .started ::
        ((body (.opened path)).events ++ [.scope outer.length path (.failed error)]) := by
  have nests : (Traced.ofExcept (checkNesting options outer (.opened path))).result = .ok () :=
    checkNesting_eq_ok_iff.mpr shallow
  have failed : (steps options outer path body).result = .error (.invalid error) := by
    rw [steps, Traced.bind_of_ok nests, Traced.bind_of_error refused]
  rw [events_inScope listened, events_reportingFailure failed, steps,
    Traced.events_bind_of_ok nests, Traced.events_bind_of_error refused]
  rfl

end Validation

theorem Passes.completes {place : Place} {definitions : List Definition} {events : List Event}
    (passes : Passes place (Definition.inOrder place.depth definitions) events)
    (type : ModuleType) :
    Completes place definitions type
      (place.event .started :: (events ++ [place.event (.finished type)])) where
  bracketed := by
    refine ⟨_, rfl, fun around => ?_⟩
    exact Reading.after_append (passes.reads around)
      (Reading.after_cons (Reading.next_finished type) rfl)
  failures := by
    change (events ++ [_]).filterMap Event.failure? = []
    rw [List.filterMap_append, passes.failures]
    rfl
  visits := by
    change (events ++ [_]).filterMap Event.visited? = _
    rw [List.filterMap_append, passes.visits]
    exact List.append_nil _

theorem Breaks.collapses {place : Place} {error : ValidationError} {before events : List Event}
    {chain : List Place} (breaks : Breaks place error before chain events) :
    Collapses place error (place.event .started :: (events ++ [place.event (.failed error)])) := by
  have same : events ++ [place.event (.failed error)] =
      before ++ (chain ++ [place]).map (·.event (.failed error)) := by
    rw [breaks.split, List.map_append, List.append_assoc]
    rfl
  have reads : ∀ around, Reading.after ⟨place :: around, none⟩ before =
      some ⟨chain ++ [place] ++ around, none⟩ := by
    intro around
    rw [breaks.reads, List.append_assoc]
    rfl
  -- A reader opens scopes only in the innermost open one, so those left open stand in each other.
  have stacked : Reading.Stacked (chain ++ [place] ++ []) :=
    Reading.stacked_after (.singleton place) (reads [])
  rw [List.append_nil] at stacked
  rw [same]
  exact {
    bracketed := ⟨_, rfl, fun around =>
      Reading.after_append (reads around) (Reading.after_failed error _ around)⟩
    unwinds := ⟨before, chain ++ [place], rfl, reads, breaks.failures, breaks.innermost,
      List.getLast?_concat, stacked⟩ }

/-! ## Whole checks -/

structure Reports (place : Place) (visits : List (Nat × Definition)) (run : Traced Fault Scope) :
    Prop where
  accepted : ∀ filled, run.result = .ok filled → Passes place visits run.events
  refused : ∀ error, run.result = .error (.invalid error) →
    ∃ before chain, Breaks place error before chain run.events

structure Brackets (place : Place) (definitions : List Definition)
    (run : Traced Fault ModuleType) : Prop where
  accepted : ∀ type, run.result = .ok type → Completes place definitions type run.events
  refused : ∀ error, run.result = .error (.invalid error) → Collapses place error run.events

namespace Validation

variable {options : Options} {outer : List Enclosing} {scope : Scope} {path : Path}
  {definition : Definition} {definitions : List Definition}

/-- A definition without a module reports only what it declares. -/
theorem emits_define (notNested : ∀ name inner, definition ≠ .nested name inner) :
    (define options outer scope definition).Emits (scope.place outer).Tells := by
  cases definition with
  | typeItem type => exact scope.emits_addType outer type
  | importItem name type => exact scope.emits_addImport outer name type
  | nested name inner => exact absurd rfl (notNested name inner)
  | absent => exact .ofExcept _
  | instantiate moduleIndex arguments =>
      exact scope.emits_addInstantiation outer moduleIndex arguments
  | tuple exports => exact scope.emits_addTuple outer exports
  | exportAlias target => exact .bind (scope.emits_aliasExport outer target) fun _ => .pure _
  | outerAlias target => exact .bind (scope.emits_aliasOuter outer target) fun _ => .pure _
  | exportItem name item => exact scope.emits_addExport outer name item

theorem reports_of_notNested (notNested : ∀ name inner, definition ≠ .nested name inner) :
    Reports (scope.place outer) (definition.within outer.length)
      (define options outer scope definition) := by
  have nothing : definition.within outer.length = [] := by
    cases definition with
    | nested name inner => exact absurd rfl (notNested name inner)
    | _ => rfl
  have passes : Passes (scope.place outer) [] (define options outer scope definition).events :=
    .of_tells (emits_define notNested)
  constructor
  case accepted =>
    intro next _
    rw [nothing]
    exact passes
  case refused =>
    intro error refused
    have place := placed_define notNested refused
    exact ⟨_, [], (List.append_nil _).symm, passes.reads, passes.failures, congrArg some place.symm⟩

theorem events_addModule {next : Scope} {type : ModuleType}
    (declared : (scope.addModule outer type).result = .ok next) :
    ∃ index, (scope.addModule outer type).events =
      [(scope.place outer).event (.declaredModule index type)] := by
  rw [Scope.addModule, Traced.result_bind, bind_eq_ok_iff] at declared
  obtain ⟨⟨index, later⟩, found, _⟩ := declared
  refine ⟨index, ?_⟩
  rw [Scope.addModule, Traced.events_bind_of_ok found]
  rfl

theorem reports_nested {name : Name} (accumulating : scope.state = .accumulating)
    (brackets : Brackets ⟨(scope.seen :: outer).length, scope.nestedPath name⟩ definitions
      (inScope options (scope.seen :: outer) (scope.nestedPath name) fun child =>
        defineAll options (scope.seen :: outer) child definitions)) :
    Reports (scope.place outer) (Definition.within outer.length (.nested name definitions))
      (define options outer scope (.nested name definitions)) := by
  have inside := scope.holds_place outer name
  constructor
  case accepted =>
    intro next accepted
    rw [define, Traced.result_bind, bind_eq_ok_iff] at accepted
    obtain ⟨type, checked, declared⟩ := accepted
    obtain ⟨index, tells⟩ := events_addModule declared
    rw [define, Traced.events_bind_of_ok checked, tells, Definition.within]
    exact (brackets.accepted type checked).passes inside index
  case refused =>
    intro error refused
    have failed := (define_nested_eq_error_iff accumulating).mp refused
    rw [define, Traced.events_bind_of_error failed]
    exact (brackets.refused error failed).breaks inside

theorem events_defineAll_cons (rest : List Definition) :
    (defineAll options outer scope (definition :: rest)).events =
      [(scope.place outer).event (.visiting definition)] ++
        (define options outer scope definition >>= fun next =>
          defineAll options outer next rest).events := by
  have reported : (scope.report outer (.visiting definition)).result = .ok () := rfl
  rw [defineAll, Traced.events_bind_of_ok reported]
  rfl

theorem reports_defineAll (accumulating : scope.state = .accumulating)
    (each : ∀ definition ∈ definitions, ∀ point : Scope, point.state = .accumulating →
      Reports (point.place outer) (definition.within outer.length)
        (define options outer point definition)) :
    Reports (scope.place outer) (Definition.inOrder outer.length definitions)
      (defineAll options outer scope definitions) := by
  induction definitions generalizing scope with
  | nil =>
      constructor
      case accepted =>
        intro filled _
        exact ⟨fun _ => rfl, rfl, rfl⟩
      case refused =>
        intro error refused
        cases refused
  | cons definition rest ih =>
      rw [List.forall_mem_cons] at each
      have here := each.1 scope accumulating
      have visiting := Passes.visiting (scope.place outer) definition
      -- The scope that a definition leaves is at the same place.
      have later : ∀ next, (define options outer scope definition).result = .ok next →
          Reports (scope.place outer) (Definition.inOrder outer.length rest)
            (defineAll options outer next rest) := by
        intro next accepted
        have collects := collects_of_define accepted
        have same : next.place outer = scope.place outer :=
          congrArg (Place.mk outer.length) collects.path
        exact same ▸ ih collects.accumulating each.2
      constructor
      case accepted =>
        intro filled accepted
        rw [result_defineAll_cons, bind_eq_ok_iff] at accepted
        obtain ⟨next, first, others⟩ := accepted
        rw [events_defineAll_cons, Traced.events_bind_of_ok first, Definition.inOrder]
        exact visiting.append
          ((here.accepted next first).append ((later next first).accepted filled others))
      case refused =>
        intro error refused
        rw [events_defineAll_cons]
        rw [result_defineAll_cons, bind_eq_error_iff] at refused
        rcases refused with first | ⟨next, first, others⟩
        · obtain ⟨before, chain, breaks⟩ := here.refused error first
          rw [Traced.events_bind_of_error first]
          exact ⟨_, chain, breaks.behind visiting⟩
        · obtain ⟨before, chain, breaks⟩ := (later next first).refused error others
          rw [Traced.events_bind_of_ok first]
          exact ⟨_, chain, (breaks.behind (here.accepted next first)).behind visiting⟩

theorem brackets_inScope (listened : options.listening = true)
    (each : ∀ definition ∈ definitions, ∀ point : Scope, point.state = .accumulating →
      Reports (point.place outer) (definition.within outer.length)
        (define options outer point definition)) :
    Brackets ⟨outer.length, path⟩ definitions (inScope options outer path fun child =>
      defineAll options outer child definitions) := by
  have reports : Reports ((Scope.opened path).place outer)
      (Definition.inOrder outer.length definitions)
      (defineAll options outer (.opened path) definitions) := reports_defineAll rfl each
  constructor
  case accepted =>
    intro type accepted
    obtain ⟨_, filled, run, _⟩ := inScope_eq_ok_iff.mp accepted
    rw [events_inScope_of_ok listened accepted]
    exact (reports.accepted filled run).completes type
  case refused =>
    intro error refused
    rcases inScope_eq_error_iff.mp refused with ⟨deep, same⟩ | ⟨shallow, run⟩
    · cases same
      rw [events_inScope_of_deep listened deep]
      have breaks : Breaks ⟨outer.length, path⟩
          ⟨path.text, .nesting outer.length options.nesting⟩ [] [] [] :=
        ⟨rfl, fun _ => rfl, rfl, rfl⟩
      exact breaks.collapses
    · obtain ⟨before, chain, breaks⟩ := reports.refused error run
      rw [events_inScope_of_refused listened shallow run]
      exact breaks.collapses

theorem reports_define (listened : options.listening = true) (definition : Definition) :
    ∀ (outer : List Enclosing) (scope : Scope), scope.state = .accumulating →
      Reports (scope.place outer) (definition.within outer.length)
        (define options outer scope definition) := by
  induction definition using Definition.nestedInduction with
  | plain definition notNested =>
      intro outer scope _
      exact reports_of_notNested notNested
  | nested name definitions ih =>
      intro outer scope accumulating
      apply reports_nested accumulating
      exact brackets_inScope listened fun inner inside point => ih inner inside _ point

/-- The events of a check are bracketed, wherever the module stands. -/
theorem brackets (listened : options.listening = true) (outer : List Enclosing) (path : Path)
    (definitions : List Definition) :
    Brackets ⟨outer.length, path⟩ definitions (inScope options outer path fun child =>
      defineAll options outer child definitions) :=
  brackets_inScope listened fun definition _ point => reports_define listened definition outer point

/-! ## Checks that end with a type or an error -/

theorem ComesTo.mem_inOrder {around : List Enclosing} {point : Scope} {reached : Definition}
    (comes : ComesTo options outer scope definitions around point reached) (depth : Nat) :
    ∃ place, (place, reached) ∈ Definition.inOrder depth definitions := by
  induction comes generalizing depth with
  | here _ _ definition rest =>
      rw [Definition.inOrder]
      exact ⟨depth, List.mem_cons_self⟩
  | after _ _ ih =>
      obtain ⟨place, inside⟩ := ih depth
      rw [Definition.inOrder]
      exact ⟨place, List.mem_cons_of_mem _ (List.mem_append_right _ inside)⟩
  | inside _ _ ih =>
      obtain ⟨place, inside⟩ := ih (depth + 1)
      rw [Definition.inOrder, Definition.within]
      exact ⟨place, List.mem_cons_of_mem _ (List.mem_append_left _ inside)⟩

/-- A safe check of a tree in which no module is missing ends with a type or an error. -/
theorem Safe.answers {outcome : Except Fault ModuleType}
    (safe : Safe options outer path definitions outcome)
    (whole : ∀ entry ∈ Definition.inOrder 0 definitions, entry.2 ≠ .absent) :
    (∃ type, outcome = .ok type) ∨ ∃ error, outcome = .error (.invalid error) := by
  rcases safe.ends with type | error | ⟨place, missing⟩
  · exact .inl type
  · exact .inr error
  · obtain ⟨_, _, _, comes, _⟩ := (safe.missing place).mp missing
    obtain ⟨depth, inside⟩ := comes.mem_inOrder 0
    exact absurd rfl (whole _ inside)

end Validation

namespace ModuleDef

/-- **Checks are bracketed.** Where somebody listens, the events of a check can be read as those of
a module that was accepted or of one that collapsed, just as its result says, for a module on its
own and for one in any scope. If no module is missing and the references name kinds, there is no
other result, on its own as well as in scopes that keep their kinds. -/
theorem events_bracketed (options : Validation.Options) (listened : options.listening = true)
    (module : ModuleDef) :
    Brackets ⟨0, module.path⟩ module.definitions (module.validate options) ∧
    (∀ (outer : List Enclosing) (parent : Scope),
      Brackets ⟨outer.length + 1, parent.nestedPath module.name⟩ module.definitions
        (module.validateIn options outer parent)) ∧
    ((∀ entry ∈ Definition.inOrder 0 module.definitions, entry.2 ≠ .absent) →
      module.refersByKind = true →
      ((∃ type, (module.validate options).result = .ok type) ∨
        ∃ error, (module.validate options).result = .error (.invalid error)) ∧
      ∀ (outer : List Enclosing) (parent : Scope),
        (∀ ancestor ∈ parent.seen :: outer, ancestor.scope.Kinded) →
        (∃ type, (module.validateIn options outer parent).result = .ok type) ∨
          ∃ error, (module.validateIn options outer parent).result = .error (.invalid error)) := by
  refine ⟨?_, fun outer parent => ?_, fun whole known => ⟨?_, fun outer parent kinded => ?_⟩⟩
  · exact Validation.brackets listened [] module.path module.definitions
  · exact Validation.brackets listened (parent.seen :: outer) _ module.definitions
  · have safe : Validation.Safe options [] module.path module.definitions
        (module.validate options).result := Validation.safe_inScope (by simp) known module.path
    exact safe.answers whole
  · exact (Validation.safe_inScope kinded known _).answers whole

/-- A module with a module in it that is instantiated, and behind it the given definitions. -/
def larder (last : List Definition) : ModuleDef where
  name := "larder"
  definitions :=
    [.importItem [2] (.complete (.func [] [])),
      .nested [] [.importItem [3] (.complete (.func [] [])), .exportItem [4] ⟨.ofKind .func, 0⟩],
      .instantiate 0 [([3], ⟨.ofKind .func, 0⟩)]] ++ last

theorem events_bracketed_larder :
    ((∀ entry ∈ Definition.inOrder 0 (larder (attic [])).definitions, entry.2 ≠ .absent) ∧
      (larder (attic [])).refersByKind = true) ∧
    Completes ⟨0, .root "larder"⟩ (larder []).definitions ⟨[([2], .func [] [])], []⟩
      ((larder []).validate {}).events ∧
    Collapses ⟨0, .root "larder"⟩ ⟨"larder/module[2]/chest", .unboundIndex .global 0 0⟩
      ((larder (attic [])).validate {}).events ∧
    ((larder (attic [])).validate {}).events.filterMap Event.failure? =
      .replicate 3 ⟨"larder/module[2]/chest", .unboundIndex .global 0 0⟩ ∧
    ((∃ type, ((larder (attic [])).validate {}).result = .ok type) ∨
      ∃ error, ((larder (attic [])).validate {}).result = .error (.invalid error)) := by
  have whole : ∀ entry ∈ Definition.inOrder 0 (larder (attic [])).definitions,
      entry.2 ≠ .absent := by
    simp [larder, attic, Definition.inOrder, Definition.within]
  have known : (larder (attic [])).refersByKind = true := by decide
  have accepted : ((larder []).validate {}).result = .ok ⟨[([2], .func [] [])], []⟩ := by
    decide +kernel
  have refused : ((larder (attic [])).validate {}).result =
      .error (.invalid ⟨"larder/module[2]/chest", .unboundIndex .global 0 0⟩) := by
    decide +kernel
  obtain ⟨brackets, _, answers⟩ := events_bracketed {} rfl (larder (attic []))
  exact ⟨⟨whole, known⟩, (events_bracketed {} rfl (larder [])).1.accepted _ accepted,
    brackets.refused _ refused, by decide +kernel, (answers whole known).1⟩

end ModuleDef

end Linkage

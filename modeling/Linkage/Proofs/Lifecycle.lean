import Mathlib.Logic.Relation
import Linkage.Proofs.InPlace
import Linkage.Proofs.Snapshot

/-!
# The life of a scope

A scope goes from empty over accumulating to frozen, and from every state but frozen to failed.
`Evolves` says what one operation can do to it and `Lasts` what any number of operations can. An
operation that fails does nothing at all. This is no matter of course, because operations check and
write by turns: `Acting` has each of them with its writes where it makes them, which stay when it
fails later, and `performs_inPlace` says that no failure comes after a write.
-/

set_option autoImplicit false

namespace Linkage

inductive ScopeState.Next : ScopeState → ScopeState → Prop where
  | start : Next .empty .accumulating
  | freeze : Next .accumulating .frozen
  | fail {state : ScopeState} (notFrozen : state ≠ .frozen) : Next state .failed

namespace Scope

variable {scope next later : Scope}

structure Evolves (scope next : Scope) : Prop where
  state : next.state = scope.state ∨ scope.state.Next next.state
  closed : scope.state ≠ .accumulating →
    next.spaces = scope.spaces ∧ next.imports = scope.imports ∧ next.exports = scope.exports
  spaces : ∀ kind, scope.spaces.get kind <+: next.spaces.get kind
  names : next.state ≠ .frozen → scope.imports <+: next.imports ∧ scope.exports <+: next.exports
  /-- A scope that is frozen gives its names away and keeps its spaces. -/
  frozen : next.state = .frozen → next.spaces = scope.spaces

structure Lasts (scope later : Scope) : Prop where
  state : Relation.ReflTransGen ScopeState.Next scope.state later.state
  terminal : scope.state.isTerminal = true → later = scope
  resolved : ∀ kind index item, scope.resolve kind index = .ok item →
    later.resolve kind index = .ok item

theorem Evolves.of_change (change : scope.Change next) : scope.Evolves next where
  state := by
    cases change with
    | same => exact .inl rfl
    | started empty => exact .inr (empty ▸ .start)
    | frozen accumulating => exact .inr (accumulating ▸ .freeze)
    | failed notFrozen => exact .inr (.fail notFrozen)
    | declared _ _ => exact .inl rfl
    | imported _ _ => exact .inl rfl
    | exported _ _ => exact .inl rfl
  closed := by
    intro notAccumulating
    cases change with
    | same => exact ⟨rfl, rfl, rfl⟩
    | started _ => exact ⟨rfl, rfl, rfl⟩
    | failed _ => exact ⟨rfl, rfl, rfl⟩
    | frozen accumulating => exact absurd accumulating notAccumulating
    | declared accumulating _ => exact absurd accumulating notAccumulating
    | imported accumulating _ => exact absurd accumulating notAccumulating
    | exported accumulating _ => exact absurd accumulating notAccumulating
  spaces := (Grows.of_change change).spaces
  names := by
    intro notFrozen
    cases change with
    | frozen _ => exact absurd rfl notFrozen
    | imported _ _ => exact ⟨List.prefix_append _ _, List.prefix_rfl⟩
    | exported _ _ => exact ⟨List.prefix_rfl, List.prefix_append _ _⟩
    | _ => exact ⟨List.prefix_rfl, List.prefix_rfl⟩
  frozen := by
    intro isFrozen
    cases change with
    | declared accumulating _ => exact absurd (accumulating.symm.trans isFrozen) (by decide)
    | imported accumulating _ => exact absurd (accumulating.symm.trans isFrozen) (by decide)
    | _ => rfl

theorem Lasts.refl (scope : Scope) : scope.Lasts scope where
  state := .refl
  terminal := fun _ => rfl
  resolved := fun _ _ _ found => found

theorem Lasts.trans (first : scope.Lasts next) (second : next.Lasts later) : scope.Lasts later where
  state := first.state.trans second.state
  terminal := by
    intro ended
    have same := first.terminal ended
    rw [second.terminal (same ▸ ended), same]
  resolved := by
    intro kind index item found
    exact second.resolved kind index item (first.resolved kind index item found)

theorem Lasts.of_change (change : scope.Change next) : scope.Lasts next where
  state := by
    rcases (Evolves.of_change change).state with same | move
    · rw [same]
    · exact .single move
  terminal := by
    intro ended
    cases change with
    | same => rfl
    | started empty => simp [empty, ScopeState.isTerminal] at ended
    | failed notFrozen =>
        -- A terminal state other than frozen is failed already.
        have failed : scope.state = .failed := by
          cases state : scope.state <;> simp_all [ScopeState.isTerminal]
        rw [← failed]
    | frozen accumulating => simp [accumulating, ScopeState.isTerminal] at ended
    | declared accumulating _ => simp [accumulating, ScopeState.isTerminal] at ended
    | imported accumulating _ => simp [accumulating, ScopeState.isTerminal] at ended
    | exported accumulating _ => simp [accumulating, ScopeState.isTerminal] at ended
  resolved := by
    intro kind index item found
    rw [resolve_eq_ok_iff] at found ⊢
    exact (Grows.of_change change).view_eq_some found

end Scope

/-! ## Operations in place -/

abbrev Acting (α : Type) := InPlace Fault Scope α

namespace Acting

open InPlace (ask)

def start : Acting Unit := do
  let scope ← get
  if scope.state = .empty then set { scope with state := .accumulating }
  else throw (.misuse (.alreadyValidated scope.name))

/-- The state is written before the names are taken out. -/
def freeze : Acting ModuleType := do
  ask Scope.requireAccumulating
  modify fun scope => { scope with state := .frozen }
  let scope ← get
  set { scope with imports := [], exports := [] }
  return ⟨scope.imports, scope.exports⟩

def fail : Acting Unit := do
  if (← get).state ≠ .frozen then modify fun scope => { scope with state := .failed }

/-- The index is read off the space after the item has been put there. -/
def declare (kind : ItemKind) (item : ItemType) : Acting Nat := do
  ask Scope.requireAccumulating
  if kind = .type ∨ item.kind = kind then
    modify fun scope => { scope with spaces := scope.spaces.push item kind }
    return (← get).length kind - 1
  else
    throw (.misuse (.wrongSpace kind item.kind))

/-- The name is written before the item is declared. -/
def declareImport (name : Name) (item : ItemType) : Acting Nat := do
  ask Scope.requireAccumulating
  if Entries.has (← get).imports name then
    ask fun scope => scope.reject (.duplicateItem .imports name)
  else
    modify fun scope => { scope with imports := scope.imports ++ [(name, item)] }
    declare item.kind item

def declareExport (name : Name) (item : ItemType) : Acting Unit := do
  ask Scope.requireAccumulating
  if Entries.has (← get).exports name then
    ask fun scope => scope.reject (.duplicateItem .exports name)
  else
    modify fun scope => { scope with exports := scope.exports ++ [(name, item)] }

def aliasExport (target : ExportAlias) : Acting Nat := do
  let item ← ask fun scope => scope.findExport target
  declare item.kind item

def aliasOuter (outer : List Enclosing) (target : OuterAlias) : Acting Nat := do
  let (kind, _, item) ← ask fun scope => scope.findOuter outer target
  declare kind item

end Acting

namespace ScopeAction

def asks : ScopeAction → Bool
  | .start | .freeze | .fail => false
  | .declare _ _ | .declareImport _ _ | .declareExport _ _ => false
  | .aliasExport _ | .aliasOuter _ => false
  | _ => true

def inPlace (options : Validation.Options) (outer : List Enclosing) :
    ScopeAction → Acting ScopeAnswer
  | .start => do Acting.start; return .done
  | .freeze => do return .moduleType (← Acting.freeze)
  | .fail => do Acting.fail; return .done
  | .declare kind item => do return .index (← Acting.declare kind item)
  | .declareImport name item => do return .index (← Acting.declareImport name item)
  | .declareExport name item => do Acting.declareExport name item; return .done
  | .aliasExport target => do return .index (← Acting.aliasExport target)
  | .aliasOuter target => do return .index (← Acting.aliasOuter outer target)
  | action => .ask fun scope => (action.run options outer scope).result.map Prod.fst

end ScopeAction

namespace Acting

open InPlace (Performs effect)

theorem performs_start (scope : Scope) :
    Performs start scope (scope.start.map fun next => ((), next)) := by
  change (if scope.state = .empty then _ else _ : Acting Unit).on scope = _
  unfold Scope.start
  cases state : scope.state with
  | empty => rfl
  | _ => rfl

theorem performs_freeze (scope : Scope) : Performs freeze scope scope.freeze :=
  Performs.ask_bind fun _ _ => rfl

theorem performs_fail (scope : Scope) : Performs fail scope (.ok ((), scope.fail)) := by
  change (if scope.state ≠ .frozen then _ else _ : Acting Unit).on scope = _
  unfold Scope.fail
  cases state : scope.state with
  | frozen => rfl
  | _ => rfl

theorem performs_declare (kind : ItemKind) (item : ItemType) (scope : Scope) :
    Performs (declare kind item) scope (scope.declare kind item) := by
  apply Performs.ask_bind
  intro _ _
  by_cases fits : kind = .type ∨ item.kind = kind
  · simp only [if_pos fits]
    have index : Scope.length { scope with spaces := scope.spaces.push item kind } kind - 1 =
        scope.length kind := by
      simp [Scope.length, Spaces.get_push]
    change (Except.ok (Scope.length { scope with spaces := scope.spaces.push item kind } kind - 1),
      _) = _
    rw [index]
    rfl
  · simp only [if_neg fits]
    rfl

/-- Once the name is written the item is declared, so no failure leaves the name behind. -/
theorem performs_declareImport (name : Name) (item : ItemType) (scope : Scope) :
    Performs (declareImport name item) scope (scope.declareImport name item) := by
  apply Performs.ask_bind
  intro _ isOpen
  have accumulating := Scope.requireAccumulating_eq_ok_iff.mp isOpen
  change (if Entries.has scope.imports name then _ else _ : Acting Nat).on scope = _
  cases Entries.has scope.imports name with
  | true => rfl
  | false =>
      let named : Scope := { scope with imports := scope.imports ++ [(name, item)] }
      have success : named.declare item.kind item = .ok (named.length item.kind,
          { named with spaces := named.spaces.push item item.kind }) :=
        Scope.declare_eq_ok_iff.mpr ⟨accumulating, .inr rfl, rfl, rfl⟩
      have declared := performs_declare item.kind item named
      rw [success] at declared
      change (declare item.kind item).on named = effect scope (named.declare item.kind item)
      rw [success]
      exact declared

theorem performs_declareExport (name : Name) (item : ItemType) (scope : Scope) :
    Performs (declareExport name item) scope
      ((scope.declareExport name item).map fun next => ((), next)) := by
  have split : ((scope.declareExport name item).map fun next => ((), next)) =
      scope.requireAccumulating >>= fun _ =>
        (if Entries.has scope.exports name then scope.reject (.duplicateItem .exports name)
        else .ok ((), { scope with exports := scope.exports ++ [(name, item)] })) := by
    unfold Scope.declareExport
    cases scope.requireAccumulating with
    | error fault => rfl
    | ok done => cases Entries.has scope.exports name <;> rfl
  rw [split]
  apply Performs.ask_bind
  intro _ _
  change (if Entries.has scope.exports name then _ else _ : Acting Unit).on scope = _
  cases Entries.has scope.exports name <;> rfl

theorem performs_aliasExport (outer : List Enclosing) (target : ExportAlias) (scope : Scope) :
    Performs (aliasExport target) scope (scope.aliasExport outer target).result := by
  rw [Scope.result_aliasExport]
  apply Performs.ask_bind
  intro item _
  exact performs_declare item.kind item scope

theorem performs_aliasOuter (outer : List Enclosing) (target : OuterAlias) (scope : Scope) :
    Performs (aliasOuter outer target) scope (scope.aliasOuter outer target).result := by
  rw [Scope.result_aliasOuter]
  apply Performs.ask_bind
  intro found _
  exact performs_declare found.1 found.2.2 scope

end Acting

/-- Actions that ask return the scope itself. -/
theorem ScopeAction.result_run_of_asks {options : Validation.Options} {outer : List Enclosing}
    {action : ScopeAction} (asks : action.asks = true) (scope : Scope) :
    (action.run options outer scope).result =
      ((action.run options outer scope).result.map Prod.fst).map fun answer => (answer, scope) := by
  cases action with
  | resolve kind index =>
      simp only [run, Traced.result_bind, Traced.result_ofExcept]
      cases scope.resolve kind index <;> rfl
  | resolveVisible kind index visible =>
      simp only [run, Traced.result_bind, Traced.result_ofExcept]
      cases scope.resolveVisible kind index visible <;> rfl
  | lookup kind index visible => rfl
  | length kind => rfl
  | instanceAt index =>
      simp only [run, Traced.result_bind, Traced.result_ofExcept]
      cases scope.instanceAt index <;> rfl
  | moduleAt index =>
      simp only [run, Traced.result_bind, Traced.result_ofExcept]
      cases scope.moduleAt index <;> rfl
  | typeAt index =>
      simp only [run, Traced.result_bind, Traced.result_ofExcept]
      cases scope.typeAt index <;> rfl
  | reject code message => rfl
  | validate module =>
      simp only [run, Traced.result_bind]
      cases (module.validateIn options outer scope).result <;> rfl
  | siblings modules =>
      simp only [run, Traced.result_bind, Traced.result_ofExcept]
      cases Verdict.ofSiblings (ModuleDef.validateIn options outer scope) modules <;> rfl
  | _ => exact absurd asks (by simp [ScopeAction.asks])

theorem ScopeAction.inPlace_of_asks {action : ScopeAction} (asks : action.asks = true)
    (options : Validation.Options) (outer : List Enclosing) :
    action.inPlace options outer =
      .ask fun scope => (action.run options outer scope).result.map Prod.fst := by
  cases action with
  | start | freeze | fail => cases asks
  | declare | declareImport | declareExport => cases asks
  | aliasExport | aliasOuter => cases asks
  | _ => rfl

/-- Every action, done in place, has the effect that it has as a function. -/
theorem ScopeAction.performs_inPlace (options : Validation.Options) (outer : List Enclosing)
    (action : ScopeAction) (scope : Scope) :
    InPlace.Performs (action.inPlace options outer) scope
      (action.run options outer scope).result := by
  by_cases asks : action.asks = true
  · rw [inPlace_of_asks asks, result_run_of_asks asks]
    exact InPlace.Performs.ask _ scope
  · cases action with
    | start =>
        have performed := (Acting.performs_start scope).map fun _ => ScopeAnswer.done
        simp only [run, Traced.result_bind, Traced.result_ofExcept]
        cases started : scope.start <;> (rw [started] at performed; exact performed)
    | declareExport name item =>
        have performed := (Acting.performs_declareExport name item scope).map fun _ =>
          ScopeAnswer.done
        simp only [run, Traced.result_bind, Traced.result_ofExcept]
        cases declared : scope.declareExport name item <;>
          (rw [declared] at performed; exact performed)
    | freeze =>
        have performed := (Acting.performs_freeze scope).map ScopeAnswer.moduleType
        simp only [run, Traced.result_bind, Traced.result_ofExcept]
        exact performed
    | fail => exact (Acting.performs_fail scope).map fun _ => ScopeAnswer.done
    | declare kind item =>
        have performed := (Acting.performs_declare kind item scope).map ScopeAnswer.index
        simp only [run, Traced.result_bind, Traced.result_ofExcept]
        exact performed
    | declareImport name item =>
        have performed := (Acting.performs_declareImport name item scope).map ScopeAnswer.index
        simp only [run, Traced.result_bind, Traced.result_ofExcept]
        exact performed
    | aliasExport target =>
        have performed := (Acting.performs_aliasExport outer target scope).map ScopeAnswer.index
        simp only [run, Traced.result_bind]
        exact performed
    | aliasOuter target =>
        have performed := (Acting.performs_aliasOuter outer target scope).map ScopeAnswer.index
        simp only [run, Traced.result_bind]
        exact performed
    | _ => exact absurd rfl asks

/-! ## Forests -/

namespace Forest

/-- Making a scope and asking one change no scope that is there. -/
def Op.asks : Op → Bool
  | .create _ _ => true
  | .act _ action => action.asks

structure Steady (options : Validation.Options) (forest : Forest) (op : Op) : Prop where
  failed : ∀ fault, (forest.step options op).2.result = .error fault →
    (forest.step options op).1 = forest
  asked : op.asks = true → ∀ number scope, forest.scope? number = some scope →
    (forest.step options op).1.scope? number = some scope
  others : ∀ number scope, forest.scope? number = some scope → number ≠ forest.target op →
    (forest.step options op).1.scope? number = some scope
  evolves : ∀ number scope, forest.scope? number = some scope →
    ∃ next, (forest.step options op).1.scope? number = some next ∧ scope.Evolves next
  handsOver : ∀ number scope, forest.scope? number = some scope → op = .act number .freeze →
    ∀ answer, (forest.step options op).2.result = .ok answer →
      answer = .moduleType ⟨scope.imports, scope.exports⟩

variable {options : Validation.Options} {forest : Forest} {op : Op} {number : Nat} {scope : Scope}

theorem scope?_create (name : Name) (parent : Option Nat)
    (present : forest.scope? number = some scope) :
    (forest.create name parent).1.scope? number = some scope := by
  obtain ⟨entry, found, same⟩ := Option.map_eq_some_iff.mp present
  have inside := (List.getElem?_eq_some_iff.mp found).1
  obtain ⟨added, whole⟩ := prefix_create forest name parent
  rw [scope?, ← whole, List.getElem?_append_left inside, found, Option.map_some, same]

theorem step_of_error {fault : Fault} (failed : (forest.step options op).2.result = .error fault) :
    (forest.step options op).1 = forest := by
  cases op with
  | create name parent =>
      rw [step] at failed ⊢
      unfold create at failed ⊢
      split at failed
      · cases failed
      next number =>
        cases present : forest.scope? number with
        | none => simp
        | some parent => simp [present] at failed
  | act target action =>
      rcases act_cases options forest target action with ⟨_, _, unchanged⟩ | performed
      · exact unchanged
      · obtain ⟨_, _, _, _, _, _, answered, _⟩ := performed
        rw [step, answered] at failed
        cases failed

theorem scope?_step_of_ne (present : forest.scope? number = some scope)
    (other : number ≠ forest.target op) :
    (forest.step options op).1.scope? number = some scope := by
  cases op with
  | create name parent => exact scope?_create name parent present
  | act target action =>
      rcases act_cases options forest target action with ⟨_, _, unchanged⟩ | performed
      · rw [step, unchanged, present]
      · obtain ⟨_, _, _, _, _, _, _, changed⟩ := performed
        have apart : target ≠ number := Ne.symm other
        rw [step, changed, scope?, List.getElem?_set_ne apart]
        exact present

theorem scope?_step_of_asks (asks : op.asks = true) (present : forest.scope? number = some scope) :
    (forest.step options op).1.scope? number = some scope := by
  cases op with
  | create name parent => exact scope?_create name parent present
  | act target action =>
      by_cases same : number = target
      · subst same
        rcases act_cases options forest number action with ⟨_, _, unchanged⟩ | performed
        · rw [step, unchanged, present]
        · obtain ⟨acting, link, answer, next, found, success, _, changed⟩ := performed
          have inside := (List.getElem?_eq_some_iff.mp found).1
          have kept : next = scope := by
            rw [scope?, found, Option.map_some, Option.some.injEq] at present
            rw [ScopeAction.result_run_of_asks asks] at success
            cases outcome : (action.run options (forest.enclosing number) acting).result with
            | error fault => rw [outcome] at success; cases success
            | ok pair =>
                rw [outcome] at success
                cases success
                exact present
          rw [step, changed, scope?, List.getElem?_set_self inside, Option.map_some, kept]
      · exact scope?_step_of_ne present same

theorem freeze_answer {answer : ScopeAnswer} (present : forest.scope? number = some scope)
    (success : (forest.step options (.act number .freeze)).2.result = .ok answer) :
    answer = .moduleType ⟨scope.imports, scope.exports⟩ := by
  rw [step, result_act options present] at success
  simp only [ScopeAction.run, Traced.result_bind, Traced.result_ofExcept, Scope.freeze] at success
  cases isOpen : scope.requireAccumulating with
  | error fault => rw [isOpen] at success; cases success
  | ok done =>
      rw [isOpen] at success
      cases success
      rfl

theorem steady (options : Validation.Options) (forest : Forest) (op : Op) :
    Steady options forest op where
  failed := fun _ => step_of_error
  asked := fun asks _ _ => scope?_step_of_asks asks
  others := fun _ _ => scope?_step_of_ne
  evolves := by
    intro number scope present
    obtain ⟨⟨_, link⟩, found, same⟩ := Option.map_eq_some_iff.mp present
    cases same
    obtain ⟨next, foundNext, change⟩ := exists_change_step options op found
    exact ⟨next, by rw [scope?, foundNext]; rfl, .of_change change⟩
  handsOver := by
    intro number scope present isFreeze answer success
    subst isFreeze
    exact freeze_answer present success

/-- By induction on the operations, each of which does what an action can do. -/
theorem lasts_run (ops : List Op) (present : forest.scope? number = some scope) :
    ∃ later, (forest.run options ops).scope? number = some later ∧ scope.Lasts later := by
  induction ops generalizing forest scope with
  | nil => exact ⟨scope, present, .refl scope⟩
  | cons op rest ih =>
      obtain ⟨⟨_, link⟩, found, same⟩ := Option.map_eq_some_iff.mp present
      cases same
      obtain ⟨next, foundNext, change⟩ := exists_change_step options op found
      have presentNext : (forest.step options op).1.scope? number = some next := by
        rw [scope?, foundNext]
        rfl
      obtain ⟨later, foundLater, lasts⟩ := ih presentNext
      exact ⟨later, foundLater, (Scope.Lasts.of_change change).trans lasts⟩

/-- **The life of a scope.** One operation moves the state of a scope along the moves between
states, changes spaces and names only while the scope is accumulating and only by adding to them,
or gives the names away in freezing it; it changes nothing if it fails, if it asks, or if it is not
about the scope. After any operations a state that was terminal is as it was, with all that the
scope holds, and what resolved to a type resolves to it. Done in place, write by write, an action
leaves just the scope that it returns, or the scope as it was. -/
theorem scope_lifecycle (options : Validation.Options) (forest : Forest) :
    (∀ op, Steady options forest op) ∧
    (∀ ops number scope, forest.scope? number = some scope →
      ∃ later, (forest.run options ops).scope? number = some later ∧ scope.Lasts later) ∧
    ∀ outer action scope, InPlace.Performs (ScopeAction.inPlace options outer action) scope
      (action.run options outer scope).result := by
  refine ⟨steady options forest, ?_, ?_⟩
  · intro ops number scope present
    exact lasts_run ops present
  · intro outer action scope
    exact action.performs_inPlace options outer scope

def workshop : Forest :=
  run {} {} [.create [1] none, .act 0 .start, .act 0 (.declareImport [2] (.func [] []))]

/-- An import whose name is taken, an export, a scope inside, and the end of the scope. -/
def errands : List Op :=
  [.act 0 (.declareImport [2] (.memory ⟨1, none⟩)), .act 0 (.declareExport [2] (.func [] [])),
    .create [3] (some 0), .act 0 .freeze, .act 0 .fail, .act 0 (.declare .func (.func [] []))]

theorem scope_lifecycle_workshop :
    (workshop.step {} (.act 0 (.declareImport [2] (.memory ⟨1, none⟩)))).1 = workshop ∧
    ∃ scope later, workshop.scope? 0 = some scope ∧
      (workshop.run {} errands).scope? 0 = some later ∧
      later.resolve .func 0 = .ok (.func [] []) := by
  obtain ⟨steady, lasts, _⟩ := scope_lifecycle {} workshop
  have present : workshop.scope? 0 = some
      { path := .root [1], state := .accumulating, spaces := { funcs := [.func [] []] },
        imports := [([2], .func [] [])] } := by rfl
  obtain ⟨later, foundLater, lasts⟩ := lasts errands 0 _ present
  refine ⟨?_, _, later, present, foundLater, lasts.resolved .func 0 _ rfl⟩
  exact (steady _).failed (.invalid ⟨[1], .duplicateItem .imports [2]⟩) (by rfl)

end Forest

end Linkage

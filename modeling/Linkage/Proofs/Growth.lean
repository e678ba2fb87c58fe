import Mathlib.Data.List.Basic
import Linkage.Proofs.Step
import Linkage.Scope.Forest

/-!
# Scopes only grow

`Change` lists everything that an action can do to a scope, and `Change.of_run` says that there is
nothing else. Whatever is done, a scope keeps its path, and each of its index spaces begins with the
entries that it had. So an entry that is seen through a fixed length is the same ever after.
-/

set_option autoImplicit false

namespace Linkage.Scope

variable {scope next later : Scope} {kind : ItemKind} {item : ItemType} {index : Nat} {name : Name}

/-! ## What an action changes -/

/-- What an action that succeeds has done to a scope, and in which states it can do so. -/
inductive Change (scope : Scope) : Scope → Prop where
  | same : Change scope scope
  | started (empty : scope.state = .empty) : Change scope { scope with state := .accumulating }
  | frozen (accumulating : scope.state = .accumulating) :
      Change scope { scope with state := .frozen, imports := [], exports := [] }
  | failed (notFrozen : scope.state ≠ .frozen) : Change scope { scope with state := .failed }
  | declared {kind : ItemKind} {item : ItemType} (accumulating : scope.state = .accumulating)
      (fits : kind = .type ∨ item.kind = kind) :
      Change scope { scope with spaces := scope.spaces.push item kind }
  | imported {name : Name} {item : ItemType} (accumulating : scope.state = .accumulating)
      (new : name ∉ scope.imports.map Prod.fst) :
      Change scope { scope with
        spaces := scope.spaces.push item item.kind
        imports := scope.imports ++ [(name, item)] }
  | exported {name : Name} {item : ItemType} (accumulating : scope.state = .accumulating)
      (new : name ∉ scope.exports.map Prod.fst) :
      Change scope { scope with exports := scope.exports ++ [(name, item)] }

theorem Change.of_declare (success : scope.declare kind item = .ok (index, next)) :
    scope.Change next := by
  obtain ⟨accumulating, fits, _, same⟩ := declare_eq_ok_iff.mp success
  exact same ▸ .declared accumulating fits

theorem Change.of_declareImport (success : scope.declareImport name item = .ok (index, next)) :
    scope.Change next := by
  obtain ⟨accumulating, new, _, same⟩ := declareImport_eq_ok_iff.mp success
  exact same ▸ .imported accumulating new

theorem Change.of_declareExport (success : scope.declareExport name item = .ok next) :
    scope.Change next := by
  obtain ⟨accumulating, new, same⟩ := declareExport_eq_ok_iff.mp success
  exact same ▸ .exported accumulating new

theorem Change.of_start (success : scope.start = .ok next) : scope.Change next := by
  unfold start at success
  split at success
  next empty =>
    cases success
    exact .started empty
  next => cases success

theorem Change.of_freeze {type : ModuleType} (success : scope.freeze = .ok (type, next)) :
    scope.Change next := by
  rw [freeze, bind_eq_ok_iff] at success
  obtain ⟨_, accumulating, success⟩ := success
  cases success
  exact .frozen (requireAccumulating_eq_ok_iff.mp accumulating)

theorem Change.of_fail (scope : Scope) : scope.Change scope.fail := by
  unfold fail
  split
  next => exact .same
  next notFrozen => exact .failed notFrozen

theorem result_aliasExport (outer : List Enclosing) (target : ExportAlias) (scope : Scope) :
    (scope.aliasExport outer target).result =
      scope.findExport target >>= fun item => scope.declare item.kind item := by
  simp only [aliasExport, Traced.result_bind, Traced.result_ofExcept]
  congr 1
  funext item
  cases scope.declare item.kind item <;> rfl

theorem result_aliasOuter (outer : List Enclosing) (target : OuterAlias) (scope : Scope) :
    (scope.aliasOuter outer target).result =
      scope.findOuter outer target >>= fun found => scope.declare found.1 found.2.2 := by
  simp only [aliasOuter, Traced.result_bind, Traced.result_ofExcept]
  congr 1
  funext found
  obtain ⟨kind, ancestor, item⟩ := found
  cases scope.declare kind item <;> rfl

theorem Change.of_aliasExport {outer : List Enclosing} {target : ExportAlias}
    (success : (scope.aliasExport outer target).result = .ok (index, next)) :
    scope.Change next := by
  rw [result_aliasExport, bind_eq_ok_iff] at success
  obtain ⟨item, _, declared⟩ := success
  exact .of_declare declared

theorem Change.of_aliasOuter {outer : List Enclosing} {target : OuterAlias}
    (success : (scope.aliasOuter outer target).result = .ok (index, next)) : scope.Change next := by
  rw [result_aliasOuter, bind_eq_ok_iff] at success
  obtain ⟨found, _, declared⟩ := success
  exact .of_declare declared

theorem Change.of_run {options : Validation.Options} {outer : List Enclosing} {action : ScopeAction}
    {answer : ScopeAnswer}
    (success : (action.run options outer scope).result = .ok (answer, next)) :
    scope.Change next := by
  cases action <;> simp only [ScopeAction.run, Traced.result_bind, Traced.result_ofExcept,
    Traced.result_pure, bind_eq_ok_iff, Except.ok.injEq, Prod.mk.injEq] at success
  case start =>
    obtain ⟨started, starts, _, same⟩ := success
    exact same ▸ .of_start starts
  case freeze =>
    obtain ⟨⟨type, frozen⟩, freezes, _, same⟩ := success
    exact same ▸ .of_freeze freezes
  case fail => exact success.2 ▸ .of_fail scope
  case declare kind item =>
    obtain ⟨⟨index, declared⟩, declares, _, same⟩ := success
    exact same ▸ .of_declare declares
  case declareImport name item =>
    obtain ⟨⟨index, declared⟩, declares, _, same⟩ := success
    exact same ▸ .of_declareImport declares
  case declareExport name item =>
    obtain ⟨declared, declares, _, same⟩ := success
    exact same ▸ .of_declareExport declares
  case aliasExport target =>
    obtain ⟨⟨index, declared⟩, declares, _, same⟩ := success
    exact same ▸ .of_aliasExport declares
  case aliasOuter target =>
    obtain ⟨⟨index, declared⟩, declares, _, same⟩ := success
    exact same ▸ .of_aliasOuter declares
  case reject code message => simp [reject] at success
  -- What is left only asks, and returns the scope itself.
  case lookup kind index visible => exact success.2 ▸ .same
  case length kind => exact success.2 ▸ .same
  all_goals
    obtain ⟨_, _, _, same⟩ := success
    exact same ▸ .same

/-! ## Growth -/

/-- A scope at a later time: each space begins with the entries of before. -/
structure Grows (scope later : Scope) : Prop where
  path : later.path = scope.path
  spaces : ∀ kind, scope.spaces.get kind <+: later.spaces.get kind

theorem Grows.of_spaces (path : next.path = scope.path) (same : next.spaces = scope.spaces) :
    scope.Grows next where
  path := path
  spaces := by
    intro kind
    exact same ▸ List.prefix_rfl

theorem Grows.refl (scope : Scope) : scope.Grows scope := .of_spaces rfl rfl

theorem Grows.trans (first : scope.Grows next) (second : next.Grows later) : scope.Grows later where
  path := second.path.trans first.path
  spaces := fun kind => (first.spaces kind).trans (second.spaces kind)

theorem Grows.length_le (grows : scope.Grows later) (kind : ItemKind) :
    scope.length kind ≤ later.length kind := (grows.spaces kind).length_le

/-- What was visible at a length that the scope had stays so. -/
theorem Grows.lookup_eq (grows : scope.Grows later) {visible : Nat}
    (reached : visible ≤ scope.length kind) (index : Nat) :
    later.lookup kind index visible = scope.lookup kind index visible := by
  unfold lookup
  by_cases inside : index < visible
  · obtain ⟨added, whole⟩ := grows.spaces kind
    have before : index < (scope.spaces.get kind).length := Nat.lt_of_lt_of_le inside reached
    rw [if_pos inside, if_pos inside, ← whole, List.getElem?_append_left before]
  · rw [if_neg inside, if_neg inside]

theorem Grows.view_eq_some (grows : scope.Grows later) (found : scope.view kind index = some item) :
    later.view kind index = some item := by
  obtain ⟨added, whole⟩ := grows.spaces kind
  have before := (List.getElem?_eq_some_iff.mp found).1
  rw [view, ← whole, List.getElem?_append_left before]
  exact found

theorem Grows.push (scope : Scope) (kind : ItemKind) (item : ItemType) :
    scope.Grows { scope with spaces := scope.spaces.push item kind } := by
  refine ⟨rfl, ?_⟩
  intro other
  rw [Spaces.get_push]
  by_cases same : other = kind
  · simp [same]
  · simp [same]

theorem Grows.of_change (change : scope.Change next) : scope.Grows next := by
  cases change with
  | same => exact .refl scope
  | started _ => exact .of_spaces rfl rfl
  | frozen _ => exact .of_spaces rfl rfl
  | failed _ => exact .of_spaces rfl rfl
  | @declared kind item _ _ => exact .push scope kind item
  | @imported name item _ _ => exact (Grows.push scope item.kind item).trans (.of_spaces rfl rfl)
  | exported _ _ => exact .of_spaces rfl rfl

end Linkage.Scope

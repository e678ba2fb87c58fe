import Linkage.Validation

/-!
# Listening does not change results

Whether somebody listens to the events of a check makes no difference to its result: see
`ModuleDef.result_validate`.
-/

set_option autoImplicit false

namespace Linkage

namespace Validation

theorem result_reportingFailure {α : Type} (depth : Nat) (path : Path) (run : Traced Fault α) :
    (reportingFailure depth path run).result = run.result := by
  unfold reportingFailure
  split
  next failure => exact failure.symm
  next => rfl

/-- The result of a check is that of its steps. -/
theorem result_inScope (options : Options) (outer : List Enclosing) (path : Path)
    (body : Scope → Traced Fault Scope) :
    (inScope options outer path body).result = do
      let scope ← Scope.start { path := path }
      checkNesting options outer scope
      let filled ← (body scope).result
      return (← filled.freeze).1 := by
  simp only [inScope, Traced.result_heard, Traced.result_bind, Traced.result_ofExcept,
    Scope.report, Traced.result_emit, result_reportingFailure, Traced.result_pure]
  rfl

theorem result_inScope_congr {options other : Options} (same : options.nesting = other.nesting)
    (outer : List Enclosing) (path : Path) {body body' : Scope → Traced Fault Scope}
    (agree : ∀ scope, (body scope).result = (body' scope).result) :
    (inScope options outer path body).result = (inScope other outer path body').result := by
  rw [result_inScope, result_inScope]
  simp only [checkNesting, same, agree]

mutual

theorem result_define {options other : Options} (same : options.nesting = other.nesting)
    (outer : List Enclosing) (scope : Scope) : ∀ definition : Definition,
    (define options outer scope definition).result = (define other outer scope definition).result
  | .typeItem _ => rfl
  | .importItem _ _ => rfl
  | .nested name definitions => by
      rw [define, define, Traced.result_bind, Traced.result_bind,
        result_inScope_congr same (scope.seen :: outer) (scope.nestedPath name) fun child =>
          result_defineAll same (scope.seen :: outer) child definitions]
  | .absent => rfl
  | .instantiate _ _ => rfl
  | .tuple _ => rfl
  | .exportAlias _ => rfl
  | .outerAlias _ => rfl
  | .exportItem _ _ => rfl

theorem result_defineAll {options other : Options} (same : options.nesting = other.nesting)
    (outer : List Enclosing) (scope : Scope) : ∀ definitions : List Definition,
    (defineAll options outer scope definitions).result =
      (defineAll other outer scope definitions).result
  | [] => rfl
  | definition :: rest => by
      simp only [defineAll, Traced.result_bind, result_define same outer scope definition,
        fun next : Scope => result_defineAll same outer next rest]

end

end Validation

/-- The result of a check depends on the nesting allowed and not on who listens. -/
theorem ModuleDef.result_validate {options other : Validation.Options}
    (same : options.nesting = other.nesting) (module : ModuleDef) :
    (module.validate options).result = (module.validate other).result :=
  Validation.result_inScope_congr same [] module.path fun scope =>
    Validation.result_defineAll same [] scope module.definitions

theorem ModuleDef.result_validateIn {options other : Validation.Options}
    (same : options.nesting = other.nesting) (outer : List Enclosing) (parent : Scope)
    (module : ModuleDef) :
    (module.validateIn options outer parent).result =
      (module.validateIn other outer parent).result :=
  Validation.result_inScope_congr same _ _ fun scope =>
    Validation.result_defineAll same _ scope module.definitions

end Linkage

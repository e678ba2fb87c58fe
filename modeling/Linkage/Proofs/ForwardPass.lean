import Linkage.Proofs.Order
import Linkage.Proofs.Step

/-!
# A single forward pass

A check goes once through the definitions of a module. What it has collected stays, and later
definitions only add to it (`Collects`); the first definition that is refused ends it with a fault
that no later definition can change (`Stops`). So the check of a module fails where its nesting or
one of its definitions fails, and nowhere else: see `inScope_eq_error_iff`.
-/

set_option autoImplicit false

namespace Linkage

namespace Scope

/-- A scope after further definitions of the same module: it still accepts definitions, and its
imports and exports begin with those of before. -/
structure Collects (scope later : Scope) : Prop where
  path : later.path = scope.path
  accumulating : later.state = .accumulating
  imports : scope.imports <+: later.imports
  exports : scope.exports <+: later.exports

theorem Collects.refl {scope : Scope} (accumulating : scope.state = .accumulating) :
    scope.Collects scope := ⟨rfl, accumulating, List.prefix_rfl, List.prefix_rfl⟩

theorem Collects.trans {scope next later : Scope} (first : scope.Collects next)
    (second : next.Collects later) : scope.Collects later where
  path := second.path.trans first.path
  accumulating := second.accumulating
  imports := first.imports.trans second.imports
  exports := first.exports.trans second.exports

end Scope

namespace Validation

variable {options : Options} {outer : List Enclosing} {scope next filled : Scope} {path : Path}
  {definition : Definition} {first second definitions : List Definition} {fault : Fault}

theorem collects_of_define
    (accepted : (define options outer scope definition).result = .ok next) :
    scope.Collects next := by
  rw [result_define_eq, bind_eq_ok_iff] at accepted
  obtain ⟨item, _, recorded⟩ := accepted
  obtain ⟨takes, same⟩ := Scope.record_eq_ok_iff.mp recorded
  subst same
  exact ⟨rfl, takes.accumulating, List.prefix_append _ _, List.prefix_append _ _⟩

theorem collects_of_defineAll (accumulating : scope.state = .accumulating)
    (accepted : (defineAll options outer scope definitions).result = .ok filled) :
    scope.Collects filled := by
  induction definitions generalizing scope with
  | nil =>
      cases accepted
      exact .refl accumulating
  | cons definition rest ih =>
      rw [result_defineAll_cons, bind_eq_ok_iff] at accepted
      obtain ⟨next, here, later⟩ := accepted
      have step := collects_of_define here
      exact step.trans (ih step.accumulating later)

/-! ## Where a check fails -/

theorem result_inScope_of_deep {body : Scope → Traced Fault Scope}
    (deep : options.nesting < outer.length) :
    (inScope options outer path body).result =
      .error (.invalid ⟨path.text, .nesting outer.length options.nesting⟩) := by
  have tooDeep : checkNesting options outer (.opened path) =
      (Scope.opened path).reject (.nesting outer.length options.nesting) :=
    if_neg (Nat.not_le_of_lt deep)
  rw [result_inScope]
  change (checkNesting options outer (.opened path) >>= _) = _
  rw [tooDeep]
  rfl

/-- The check of a module fails with the error that it is nested too deep, or else with the fault of
its definitions. Closing the scope never fails. -/
theorem inScope_eq_error_iff :
    (inScope options outer path fun child =>
      defineAll options outer child definitions).result = .error fault ↔
      options.nesting < outer.length ∧
          fault = .invalid ⟨path.text, .nesting outer.length options.nesting⟩ ∨
        outer.length ≤ options.nesting ∧
          (defineAll options outer (.opened path) definitions).result = .error fault := by
  by_cases shallow : outer.length ≤ options.nesting
  · rw [result_inScope_of_shallow shallow, bind_eq_error_iff]
    simp only [Nat.not_lt_of_le shallow, shallow, false_and, true_and, false_or]
    constructor
    · rintro (run | ⟨filled, run, unclosed⟩)
      · exact run
      · have accumulating := (collects_of_defineAll rfl run).accumulating
        obtain ⟨frozen, freezes⟩ := freeze_eq_ok_iff.mpr ⟨accumulating, rfl⟩
        rw [freezes] at unclosed
        cases unclosed
    · exact .inl
  · have deep : options.nesting < outer.length := Nat.lt_of_not_le shallow
    rw [result_inScope_of_deep deep]
    simp only [deep, shallow, false_and, true_and, or_false, Except.error.injEq, eq_comm]

/-- A run of definitions stops at a position: it comes through all definitions before, and the one
that stands there is refused. -/
structure Stops (options : Options) (outer : List Enclosing) (scope : Scope)
    (definitions : List Definition) (position : Nat) (point : Scope) (definition : Definition)
    (fault : Fault) : Prop where
  before : (defineAll options outer scope (definitions.take position)).result = .ok point
  found : definitions[position]? = some definition
  refused : (define options outer point definition).result = .error fault

theorem Stops.result {position : Nat} {point : Scope}
    (stops : Stops options outer scope definitions position point definition fault) :
    (defineAll options outer scope definitions).result = .error fault := by
  obtain ⟨inside, same⟩ := List.getElem?_eq_some_iff.mp stops.found
  have whole : definitions = definitions.take position ++
      definition :: definitions.drop (position + 1) := by
    rw [← same, List.getElem_cons_drop, List.take_append_drop]
  rw [whole, result_defineAll_append, stops.before]
  change (defineAll options outer point (definition :: _)).result = _
  rw [result_defineAll_cons, stops.refused]
  rfl

theorem exists_stops
    (failed : (defineAll options outer scope definitions).result = .error fault) :
    ∃ position point definition,
      Stops options outer scope definitions position point definition fault := by
  induction definitions generalizing scope with
  | nil => cases failed
  | cons definition rest ih =>
      rw [result_defineAll_cons, bind_eq_error_iff] at failed
      rcases failed with here | ⟨next, here, failed⟩
      · exact ⟨0, scope, definition, rfl, rfl, here⟩
      · obtain ⟨position, point, reached, before, found, refused⟩ := ih failed
        refine ⟨position + 1, point, reached, ?_, found, refused⟩
        rw [List.take_succ_cons, result_defineAll_cons, here]
        exact before

/-- A module whose definitions fail also fails with more definitions behind them, and with the same
fault. -/
theorem result_inScope_append_of_error
    (failed : (inScope options outer path fun child =>
      defineAll options outer child first).result = .error fault) :
    (inScope options outer path fun child =>
      defineAll options outer child (first ++ second)).result = .error fault := by
  rw [inScope_eq_error_iff] at failed ⊢
  rcases failed with tooDeep | ⟨shallow, run⟩
  · exact .inl tooDeep
  · refine .inr ⟨shallow, ?_⟩
    rw [result_defineAll_append, run]
    rfl

/-- A module that is accepted is accepted without its last definitions, and then has the first of
its imports and exports. -/
theorem exists_inScope_of_append {whole : ModuleType}
    (accepted : (inScope options outer path fun child =>
      defineAll options outer child (first ++ second)).result = .ok whole) :
    ∃ part : ModuleType,
      (inScope options outer path fun child =>
        defineAll options outer child first).result = .ok part ∧
      part.imports <+: whole.imports ∧ part.exports <+: whole.exports := by
  obtain ⟨shallow, filled, run, _, same⟩ := inScope_eq_ok_iff.mp accepted
  rw [result_defineAll_append, bind_eq_ok_iff] at run
  obtain ⟨part, ran, later⟩ := run
  have accumulating := (collects_of_defineAll rfl ran).accumulating
  have collects := collects_of_defineAll accumulating later
  subst same
  exact ⟨⟨part.imports, part.exports⟩,
    inScope_eq_ok_iff.mpr ⟨shallow, part, ran, accumulating, rfl⟩,
    collects.imports, collects.exports⟩

end Validation

/-! ## Beginnings of modules -/

/-- Entries behind others change none of them. -/
theorem Entries.lookup_of_prefix {α : Type} {entries others : List (Name × α)} {name : Name}
    {value : α} (begins : entries <+: others) (found : entries.lookup name = some value) :
    others.lookup name = some value := by
  obtain ⟨rest, whole⟩ := begins
  rw [← whole, List.lookup_append, found]
  rfl

theorem ItemType.isSubtype_inst_of_prefix {exports others : InstanceType}
    (begins : exports <+: others) :
    (ItemType.inst others).isSubtype (.inst exports) = true := by
  rw [ItemType.isSubtype_iff, ItemType.below_inst_iff]
  intro name want found
  exact ⟨want, Entries.lookup_of_prefix begins found, .refl want⟩

namespace ModuleDef

/-- **A single forward pass.** A module that fails keeps failing with the same fault whatever
definitions are added behind its own. A module that is accepted is also accepted without its last
definitions; what it then imports and exports it imports and exports unchanged as a whole, so that
both its imports and its exports as a whole are below those. -/
theorem validate_append (options : Validation.Options) (name : Name)
    (first second : List Definition) :
    (∀ fault, (ModuleDef.validate options ⟨name, first⟩).result = .error fault →
      (ModuleDef.validate options ⟨name, first ++ second⟩).result = .error fault) ∧
    ∀ whole, (ModuleDef.validate options ⟨name, first ++ second⟩).result = .ok whole →
      ∃ part, (ModuleDef.validate options ⟨name, first⟩).result = .ok part ∧
        (∀ entry type, part.imports.lookup entry = some type →
          whole.imports.lookup entry = some type) ∧
        (∀ entry type, part.exports.lookup entry = some type →
          whole.exports.lookup entry = some type) ∧
        (ItemType.inst whole.exports).isSubtype (.inst part.exports) = true ∧
        (ItemType.inst whole.imports).isSubtype (.inst part.imports) = true := by
  refine ⟨?_, ?_⟩
  · intro fault failed
    exact Validation.result_inScope_append_of_error failed
  · intro whole accepted
    obtain ⟨part, success, imports, exports⟩ := Validation.exists_inScope_of_append accepted
    exact ⟨part, success, fun _ _ => Entries.lookup_of_prefix imports,
      fun _ _ => Entries.lookup_of_prefix exports, ItemType.isSubtype_inst_of_prefix exports,
      ItemType.isSubtype_inst_of_prefix imports⟩

def loan : List Definition :=
  [.typeItem (.complete (.func [] [])), .importItem [2] (.indexed (.ofKind .func) 0),
    .exportItem [3] ⟨.ofKind .func, 0⟩]

def interest (name : Name) : List Definition :=
  [.importItem [4] (.complete (.memory ⟨1, none⟩)), .exportItem name ⟨.ofKind .memory, 0⟩]

theorem validate_append_loan :
    (ModuleDef.validate {} ⟨[1], loan ++ interest [5]⟩).result =
      .ok ⟨[([2], .func [] []), ([4], .memory ⟨1, none⟩)],
        [([3], .func [] []), ([5], .memory ⟨1, none⟩)]⟩ ∧
    (∃ part, (ModuleDef.validate {} ⟨[1], loan⟩).result = .ok part ∧
      (ItemType.inst [([3], .func [] []), ([5], .memory ⟨1, none⟩)]).isSubtype
        (.inst part.exports) = true) ∧
    (ModuleDef.validate {} ⟨[1], (loan ++ interest [3]) ++ interest [5]⟩).result =
      .error (.invalid ⟨[1], .duplicateItem .exports [3]⟩) := by
  have accepted : (ModuleDef.validate {} ⟨[1], loan ++ interest [5]⟩).result =
      .ok ⟨[([2], .func [] []), ([4], .memory ⟨1, none⟩)],
        [([3], .func [] []), ([5], .memory ⟨1, none⟩)]⟩ := by decide +kernel
  have refused : (ModuleDef.validate {} ⟨[1], loan ++ interest [3]⟩).result =
      .error (.invalid ⟨[1], .duplicateItem .exports [3]⟩) := by decide +kernel
  obtain ⟨part, success, _, _, below, _⟩ :=
    (validate_append {} [1] loan (interest [5])).2 _ accepted
  exact ⟨accepted, ⟨part, success, below⟩,
    (validate_append {} [1] (loan ++ interest [3]) (interest [5])).1 _ refused⟩

end ModuleDef

end Linkage

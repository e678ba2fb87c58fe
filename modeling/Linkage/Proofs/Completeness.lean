import Linkage.Proofs.Typing

/-!
# Every typed module tree is accepted

Given a typing, the check of a definition succeeds as soon as the checks before it have followed the
typing, and goes on following it. From one definition this carries over to the definitions of a
module, by induction on them, and to whole trees, by induction on the nesting.
-/

set_option autoImplicit false

namespace Linkage

def View.Kinded (view : View) : Prop :=
  ∀ kind index item, view kind index = some item → kind = .type ∨ item.kind = kind

theorem Scope.Kept.kinded {scope : Scope} (kept : scope.Kept) : View.Kinded scope.view := by
  intro kind index item found
  by_cases isType : kind = .type
  · exact Or.inl isType
  · exact Or.inr (kept.kinds kind isType item (List.mem_of_getElem? found))

/-- The item of a definition belongs into the space in which it is declared. Only an outer alias
takes its space from elsewhere. -/
theorem Rule.fits {here : View} {outer : List View} {inner : ModuleType} {definition : Definition}
    {item : ItemType} (rule : Rule here outer inner definition item)
    (kinded : ∀ view ∈ outer, View.Kinded view) (kind : ItemKind)
    (space : definition.space item = some kind) : kind = .type ∨ item.kind = kind := by
  cases rule with
  | typeItem spelt => exact Or.inl (Option.some.inj space).symm
  | outerAlias aliased code ancestor visible =>
      have known := KindCode.outerKind?_eq_some_iff.mpr ⟨aliased, code⟩
      have same := Option.some.inj (known.symm.trans space)
      rw [← same]
      exact kinded _ (List.mem_of_getElem? ancestor) _ _ _ visible
  | exportItem named => simp [Definition.space] at space
  | importItem spelt => exact Or.inr (Option.some.inj space)
  | nested => exact Or.inr (Option.some.inj space)
  | instantiate target distinct named supplied => exact Or.inr (Option.some.inj space)
  | tuple distinct named => exact Or.inr (Option.some.inj space)
  | exportAlias source exported kinds => exact Or.inr (Option.some.inj space)

namespace ModuleDef

variable {options : Validation.Options} {module : ModuleDef} {types : Assignment}

theorem IsTyping.takes (typing : module.IsTyping options.nesting types) {path : Address}
    {position : Nat} {definition : Definition} {outer : List Enclosing} {scope : Scope}
    (found : (module.definitionsAt path)[position]? = some definition)
    (follows : module.Follows types path position outer scope)
    (kinded : ∀ enclosing ∈ outer, View.Kinded enclosing.view) :
    scope.Takes definition (types (position :: path)) where
  accumulating := follows.accumulating
  fits := by
    apply (typing.rule path position definition found).fits
    intro view inside
    rw [← follows.enclosing] at inside
    obtain ⟨enclosing, among, same⟩ := List.mem_map.mp inside
    exact same ▸ kinded enclosing among
  newImport := by
    intro entry named
    have distinct := typing.distinctImports path
    rw [typeAt, typedAt_split found, imported_append, imported_cons, named] at distinct
    rw [follows.imports]
    exact Entries.notMem_of_nodup distinct
  newExport := by
    intro entry named
    have distinct := typing.distinctExports path
    rw [typeAt, typedAt_split found, exported_append, exported_cons, named] at distinct
    rw [follows.exports]
    exact Entries.notMem_of_nodup distinct

/-- Wherever the definition stands, its check succeeds and follows the typing. -/
def Accepted (options : Validation.Options) (module : ModuleDef) (types : Assignment)
    (definition : Definition) : Prop :=
  ∀ {path : Address} {position : Nat} {outer : List Enclosing} {scope : Scope},
    (module.definitionsAt path)[position]? = some definition →
    module.Follows types path position outer scope → scope.Kept →
    (∀ enclosing ∈ outer, View.Kinded enclosing.view) →
    (Validation.define options outer scope definition).result =
      .ok (scope.extended definition (types (position :: path)))

/-- If each definition of a module is accepted, so is what remains of the module at any point. -/
theorem run_of_accepted (typing : module.IsTyping options.nesting types) {path : Address}
    {outer : List Enclosing}
    (each : ∀ definition ∈ module.definitionsAt path, module.Accepted options types definition)
    (kinded : ∀ enclosing ∈ outer, View.Kinded enclosing.view) {rest : List Definition}
    {position : Nat} {scope : Scope} (within : position ≤ (module.definitionsAt path).length)
    (remaining : (module.definitionsAt path).drop position = rest)
    (follows : module.Follows types path position outer scope) (kept : scope.Kept) :
    ∃ filled, (Validation.defineAll options outer scope rest).result = .ok filled ∧
      module.Follows types path (module.definitionsAt path).length outer filled := by
  -- What remains gets shorter while the position moves on; the scope follows the typing all along.
  induction rest generalizing position scope with
  | nil =>
      have beyond := List.drop_eq_nil_iff.mp remaining
      have done : position = (module.definitionsAt path).length := by omega
      exact ⟨scope, rfl, done ▸ follows⟩
  | cons definition rest ih =>
      have found : (module.definitionsAt path)[position]? = some definition := by
        rw [← List.head?_drop, remaining, List.head?_cons]
      have later : (module.definitionsAt path).drop (position + 1) = rest := by
        rw [← List.tail_drop, remaining, List.tail_cons]
      have inside : position < (module.definitionsAt path).length :=
        (List.getElem?_eq_some_iff.mp found).1
      have takes := typing.takes found follows kinded
      have accepted := each definition (List.mem_of_getElem? found) found follows kept kinded
      rw [Validation.result_defineAll_cons, accepted]
      exact ih (by omega) later (follows.extended found) (kept.extended takes)

theorem inScope_of_accepted (typing : module.IsTyping options.nesting types) {path : Address}
    {outer : List Enclosing} (scopePath : Path)
    (each : ∀ definition ∈ module.definitionsAt path, module.Accepted options types definition)
    (enclosing : outer.map Enclosing.view = module.enclosingAt types path)
    (kinded : ∀ enclosing ∈ outer, View.Kinded enclosing.view)
    (shallow : path.length ≤ options.nesting) :
    (Validation.inScope options outer scopePath fun child =>
      Validation.defineAll options outer child (module.definitionsAt path)).result =
        .ok (module.typeAt types path) := by
  have start : module.Follows types path 0 outer (.opened scopePath) := .opened enclosing
  obtain ⟨filled, run, follows⟩ := run_of_accepted typing each kinded (Nat.zero_le _) rfl start
    (.opened scopePath)
  rw [Validation.inScope_eq_ok_iff]
  refine ⟨?_, filled, run, follows.accumulating, follows.moduleType_eq.symm⟩
  rw [start.length_outer]
  exact shallow

/-- One step of a check that follows a typing. What a nested module comes to is left to the
caller. -/
theorem define_of_typing (typing : module.IsTyping options.nesting types) {path : Address}
    {position : Nat} {definition : Definition} {outer : List Enclosing} {scope : Scope}
    (found : (module.definitionsAt path)[position]? = some definition)
    (follows : module.Follows types path position outer scope)
    (kinded : ∀ enclosing ∈ outer, View.Kinded enclosing.view)
    (nested : ∀ name definitions, definition = .nested name definitions →
      Validation.itemOf options outer scope definition =
        .ok (.ofModule (module.typeAt types (position :: path)))) :
    (Validation.define options outer scope definition).result =
      .ok (scope.extended definition (types (position :: path))) := by
  have rule := typing.rule path position definition found
  rw [← follows.view_eq, ← follows.enclosing] at rule
  have takes := typing.takes found follows kinded
  exact (Validation.define_eq_ok_iff nested).mpr ⟨_, rule, takes, rfl⟩

theorem accepted_of_typing (typing : module.IsTyping options.nesting types)
    (definition : Definition) : module.Accepted options types definition := by
  induction definition using Definition.nestedInduction with
  | plain definition notNested =>
      intro path position outer scope found follows kept kinded
      apply define_of_typing typing found follows kinded
      intro name definitions same
      exact absurd same (notNested name definitions)
  | nested name definitions ih =>
      intro path position outer scope found follows kept kinded
      apply define_of_typing typing found follows kinded
      intro _ _ _
      -- Inside, the scope of this module is one more scope around.
      have aroundKinded : ∀ enclosing ∈ scope.seen :: outer, View.Kinded enclosing.view := by
        intro enclosing among
        rcases List.mem_cons.mp among with first | further
        · rw [first, Scope.view_seen]
          exact kept.kinded
        · exact kinded enclosing further
      have inside := definitionsAt_nested found
      have checked := inScope_of_accepted typing (scope.nestedPath name) (inside ▸ ih)
        follows.enclosing_nested aroundKinded (typing.nesting path position name definitions found)
      rw [inside] at checked
      rw [Validation.itemOf, checked]
      rfl

/-- A typed module tree is accepted with the type that the typing gives the whole tree. -/
theorem result_validate_of_typing (typing : module.IsTyping options.nesting types) :
    (module.validate options).result = .ok (module.typeAt types []) := by
  have each : ∀ definition ∈ module.definitionsAt [],
      module.Accepted options types definition := fun definition _ =>
    accepted_of_typing typing definition
  have around : ∀ enclosing ∈ ([] : List Enclosing), View.Kinded enclosing.view := by
    intro enclosing inside
    exact absurd inside List.not_mem_nil
  have checked := inScope_of_accepted typing module.path each rfl around (Nat.zero_le _)
  rw [definitionsAt] at checked
  rw [validate, checked]

end ModuleDef

end Linkage

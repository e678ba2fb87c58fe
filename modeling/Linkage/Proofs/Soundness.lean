import Linkage.Proofs.Completeness

/-!
# Every accepted module tree has a typing

An accepted module has been checked at each of its definitions, and so have the modules inside it.
The types found on the way form a typing: `entered` follows an address down to the scope in which
the module there was checked, and `foundType` is the type found for the definition there.
-/

set_option autoImplicit false

namespace Linkage.ModuleDef

open Validation (defineAll itemOf)

/-- The scopes around the module at an address and its own scope when its check starts, if the check
of the tree gets there. -/
def entered (options : Validation.Options) (module : ModuleDef) :
    Address → Option (List Enclosing × Scope)
  | [] => some ([], .opened module.path)
  | position :: path => do
      let (outer, start) ← module.entered options path
      let before := (module.definitionsAt path).take position
      let scope ← (defineAll options outer start before).result.toOption
      match (module.definitionsAt path)[position]? with
      | some (.nested name _) => return (scope.seen :: outer, .opened (scope.nestedPath name))
      | _ => none

def foundType (options : Validation.Options) (module : ModuleDef) : Assignment
  | [] => .inst []
  | position :: path =>
      let found : Option ItemType := do
        let (outer, start) ← module.entered options path
        let before := (module.definitionsAt path).take position
        let scope ← (defineAll options outer start before).result.toOption
        let definition ← (module.definitionsAt path)[position]?
        (itemOf options outer scope definition).toOption
      found.getD (.inst [])

variable {options : Validation.Options} {module : ModuleDef} {path : Address} {position : Nat}
  {outer : List Enclosing} {start scope filled : Scope} {scopePath : Path}

theorem entered_nested {name : Name} {definitions : List Definition}
    (enters : module.entered options path = some (outer, start))
    (run : (defineAll options outer start
      ((module.definitionsAt path).take position)).result = .ok scope)
    (found : (module.definitionsAt path)[position]? = some (.nested name definitions)) :
    module.entered options (position :: path) =
      some (scope.seen :: outer, .opened (scope.nestedPath name)) := by
  simp [entered, enters, run, found, Except.toOption]

theorem foundType_eq {definition : Definition} {item : ItemType}
    (enters : module.entered options path = some (outer, start))
    (run : (defineAll options outer start
      ((module.definitionsAt path).take position)).result = .ok scope)
    (found : (module.definitionsAt path)[position]? = some definition)
    (success : itemOf options outer scope definition = .ok item) :
    module.foundType options (position :: path) = item := by
  simp [foundType, enters, run, found, success, Except.toOption]

structure Checked (options : Validation.Options) (module : ModuleDef) (path : Address)
    (outer : List Enclosing) (scopePath : Path) (filled : Scope) : Prop where
  enters : module.entered options path = some (outer, .opened scopePath)
  enclosing : outer.map Enclosing.view = module.enclosingAt (module.foundType options) path
  run : (defineAll options outer (.opened scopePath) (module.definitionsAt path)).result =
    .ok filled
  shallow : outer.length ≤ options.nesting

/-- The check of a module stands at a position: the definitions before it have been accepted, and
the scope holds what has been found for them. -/
structure Reaches (options : Validation.Options) (module : ModuleDef) (path : Address)
    (outer : List Enclosing) (scopePath : Path) (filled : Scope) (position : Nat) (scope : Scope) :
    Prop where
  run : (defineAll options outer (.opened scopePath)
    ((module.definitionsAt path).take position)).result = .ok scope
  follows : module.Follows (module.foundType options) path position outer scope
  kept : scope.Kept
  rest : (defineAll options outer scope ((module.definitionsAt path).drop position)).result =
    .ok filled

/-- A definition at which the check stands has a type, which the scope takes. -/
theorem Reaches.step {definition : Definition}
    (checked : module.Checked options path outer scopePath filled)
    (reaches : module.Reaches options path outer scopePath filled position scope)
    (found : (module.definitionsAt path)[position]? = some definition) :
    itemOf options outer scope definition = .ok (module.foundType options (position :: path)) ∧
      scope.Takes definition (module.foundType options (position :: path)) ∧
      module.Reaches options path outer scopePath filled (position + 1)
        (scope.extended definition (module.foundType options (position :: path))) := by
  have inside := (List.getElem?_eq_some_iff.mp found).1
  have here := (List.getElem?_eq_some_iff.mp found).2
  have rest := reaches.rest
  rw [List.drop_eq_getElem_cons inside, here, Validation.result_defineAll_cons,
    bind_eq_ok_iff] at rest
  obtain ⟨next, defined, rest⟩ := rest
  have split := defined
  rw [Validation.result_define_eq, bind_eq_ok_iff] at split
  obtain ⟨item, success, recorded⟩ := split
  obtain ⟨takes, extended⟩ := Scope.record_eq_ok_iff.mp recorded
  -- What the check finds here is by definition what `foundType` says.
  have same := foundType_eq checked.enters reaches.run found success
  subst same
  subst extended
  refine ⟨success, takes, ?_, reaches.follows.extended found, reaches.kept.extended takes, rest⟩
  rw [List.take_add_one, found, Validation.result_defineAll_append, reaches.run]
  change (defineAll options outer scope [definition]).result = _
  rw [Validation.result_defineAll_cons, defined]
  rfl

theorem Checked.reaches (checked : module.Checked options path outer scopePath filled)
    (within : position ≤ (module.definitionsAt path).length) :
    ∃ scope, module.Reaches options path outer scopePath filled position scope := by
  induction position with
  | zero =>
      exact ⟨.opened scopePath, rfl, .opened checked.enclosing, .opened scopePath, checked.run⟩
  | succ position ih =>
      obtain ⟨scope, reaches⟩ := ih (by omega)
      have found := List.getElem?_eq_getElem (show position < (module.definitionsAt path).length by
        omega)
      exact ⟨_, (reaches.step checked found).2.2⟩

theorem Checked.follows_filled (checked : module.Checked options path outer scopePath filled) :
    module.Follows (module.foundType options) path (module.definitionsAt path).length outer filled ∧
      filled.Kept := by
  obtain ⟨scope, reaches⟩ := checked.reaches (Nat.le_refl _)
  have rest := reaches.rest
  rw [List.drop_length] at rest
  cases rest
  exact ⟨reaches.follows, reaches.kept⟩

/-- A module nested in a checked module has been checked, and its type is the one found for it. -/
theorem Checked.nested {name : Name} {definitions : List Definition}
    (checked : module.Checked options path outer scopePath filled)
    (found : (module.definitionsAt path)[position]? = some (.nested name definitions)) :
    ∃ around innerPath inner, module.Checked options (position :: path) around innerPath inner ∧
      module.foundType options (position :: path) =
        .ofModule (module.typeAt (module.foundType options) (position :: path)) := by
  have inside := (List.getElem?_eq_some_iff.mp found).1
  obtain ⟨scope, reaches⟩ := checked.reaches (Nat.le_of_lt inside)
  obtain ⟨success, _, _⟩ := reaches.step checked found
  rw [itemOf, bind_eq_ok_iff] at success
  obtain ⟨type, accepted, same⟩ := success
  obtain ⟨shallow, inner, run, _, innerType⟩ := Validation.inScope_eq_ok_iff.mp accepted
  have innerChecked : module.Checked options (position :: path) (scope.seen :: outer)
      (scope.nestedPath name) inner := by
    refine ⟨entered_nested checked.enters reaches.run found, reaches.follows.enclosing_nested, ?_,
      shallow⟩
    rw [definitionsAt_nested found]
    exact run
  refine ⟨_, _, inner, innerChecked, ?_⟩
  rw [← innerChecked.follows_filled.1.moduleType_eq, ← innerType]
  exact (Except.ok.inj same).symm

theorem checked_root {type : ModuleType} (success : (module.validate options).result = .ok type) :
    ∃ filled, module.Checked options [] [] module.path filled ∧
      module.typeAt (module.foundType options) [] = type := by
  rw [validate] at success
  obtain ⟨shallow, filled, run, _, same⟩ := Validation.inScope_eq_ok_iff.mp success
  have checked : module.Checked options [] [] module.path filled := ⟨rfl, rfl, run, shallow⟩
  refine ⟨filled, checked, ?_⟩
  rw [same, checked.follows_filled.1.moduleType_eq]

theorem exists_checked {type : ModuleType} (success : (module.validate options).result = .ok type)
    (inhabited : module.definitionsAt path ≠ []) :
    ∃ outer scopePath filled, module.Checked options path outer scopePath filled := by
  -- From the root down the address: a module that holds a definition is nested in one that does.
  induction path with
  | nil =>
      obtain ⟨filled, checked, _⟩ := checked_root success
      exact ⟨_, _, filled, checked⟩
  | cons position path ih =>
      obtain ⟨name, found⟩ := exists_nested_of_definitionsAt inhabited
      have inhabitedOuter : module.definitionsAt path ≠ [] := by
        intro empty
        simp [empty] at found
      obtain ⟨_, _, _, checked⟩ := ih inhabitedOuter
      obtain ⟨around, innerPath, inner, innerChecked, _⟩ := checked.nested found
      exact ⟨around, innerPath, inner, innerChecked⟩

theorem Checked.rule {definition : Definition}
    (checked : module.Checked options path outer scopePath filled)
    (found : (module.definitionsAt path)[position]? = some definition) :
    Rule (module.visibleAt (module.foundType options) position path)
      (module.enclosingAt (module.foundType options) path)
      (module.typeAt (module.foundType options) (position :: path)) definition
      (module.foundType options (position :: path)) := by
  have inside := (List.getElem?_eq_some_iff.mp found).1
  obtain ⟨scope, reaches⟩ := checked.reaches (Nat.le_of_lt inside)
  obtain ⟨success, _, _⟩ := reaches.step checked found
  rw [← reaches.follows.view_eq, ← checked.enclosing]
  refine (Validation.itemOf_eq_ok_iff ?_).mp success
  intro name definitions nested
  subst nested
  obtain ⟨_, _, _, _, same⟩ := checked.nested found
  rw [success, same]

theorem Checked.distinct (checked : module.Checked options path outer scopePath filled) :
    ((module.typeAt (module.foundType options) path).imports.map Prod.fst).Nodup ∧
      ((module.typeAt (module.foundType options) path).exports.map Prod.fst).Nodup := by
  obtain ⟨follows, kept⟩ := checked.follows_filled
  rw [← follows.moduleType_eq]
  exact ⟨kept.distinctImports, kept.distinctExports⟩

theorem isTyping_foundType {type : ModuleType}
    (success : (module.validate options).result = .ok type) :
    module.IsTyping options.nesting (module.foundType options) := by
  have checkedAt : ∀ {path : Address} {position : Nat} {definition : Definition},
      (module.definitionsAt path)[position]? = some definition →
        ∃ outer scopePath filled, module.Checked options path outer scopePath filled := by
    intro path position definition found
    apply exists_checked success
    intro empty
    simp [empty] at found
  have distinct : ∀ path,
      ((module.typeAt (module.foundType options) path).imports.map Prod.fst).Nodup ∧
        ((module.typeAt (module.foundType options) path).exports.map Prod.fst).Nodup := by
    intro path
    by_cases empty : module.definitionsAt path = []
    · simp [typeAt, typedAt, empty, imported, exported]
    · obtain ⟨_, _, _, checked⟩ := exists_checked success empty
      exact checked.distinct
  refine ⟨?_, fun path => (distinct path).1, fun path => (distinct path).2, ?_⟩
  · intro path position definition found
    obtain ⟨_, _, _, checked⟩ := checkedAt found
    exact checked.rule found
  · intro path position name definitions found
    obtain ⟨_, _, _, checked⟩ := checkedAt found
    obtain ⟨_, _, _, innerChecked, _⟩ := checked.nested found
    rw [← innerChecked.follows_filled.1.length_outer]
    exact innerChecked.shallow

/-- **Validation decides typing.** A module is accepted with a type exactly if its tree has a typing
in which it has this type. -/
theorem validate_eq_ok_iff_typing (options : Validation.Options) (module : ModuleDef)
    (type : ModuleType) :
    (module.validate options).result = .ok type ↔
      ∃ types, module.IsTyping options.nesting types ∧ module.typeAt types [] = type := by
  constructor
  · intro success
    obtain ⟨_, _, same⟩ := checked_root success
    exact ⟨module.foundType options, isTyping_foundType success, same⟩
  · intro typed
    obtain ⟨types, typing, same⟩ := typed
    rw [result_validate_of_typing typing, same]

end Linkage.ModuleDef

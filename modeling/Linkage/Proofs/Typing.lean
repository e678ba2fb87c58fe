import Linkage.Proofs.Step

/-!
# Typings of module trees

A typing assigns to every definition of a module tree the type of the item that it declares or
exports, such that the rule of each definition holds in view of the entries that earlier definitions
of the modules around it declare. It is a condition on all definitions at once: nothing is said of
an order in which they are checked. `Follows` ties a typing to a check that has got as far as a
definition: the scopes then show exactly what the typing makes visible there.
-/

set_option autoImplicit false

namespace Linkage

/-- The place of a definition in a module tree: its position in its module, followed by the place of
the nested module that it is in. The empty address is that of the whole tree. -/
abbrev Address := List Nat

abbrev Assignment := Address → ItemType

namespace ModuleDef

def definitionsAt (module : ModuleDef) : Address → List Definition
  | [] => module.definitions
  | position :: path =>
      match (module.definitionsAt path)[position]? with
      | some (.nested _ definitions) => definitions
      | _ => []

def typedAt (module : ModuleDef) (types : Assignment) (path : Address) :
    List (Definition × ItemType) :=
  (module.definitionsAt path).mapIdx fun position definition =>
    (definition, types (position :: path))

def declared (typed : List (Definition × ItemType)) (kind : ItemKind) : List ItemType :=
  typed.filterMap fun pair => if pair.1.space pair.2 = some kind then some pair.2 else none

def imported (typed : List (Definition × ItemType)) : InstanceType :=
  typed.filterMap fun pair => pair.1.importEntry pair.2

def exported (typed : List (Definition × ItemType)) : InstanceType :=
  typed.filterMap fun pair => pair.1.exportEntry pair.2

/-- What is visible of a module at a place in it: the entries that strictly earlier definitions of
the module declare. -/
def visibleAt (module : ModuleDef) (types : Assignment) (position : Nat) (path : Address) : View :=
  fun kind index => (declared ((module.typedAt types path).take position) kind)[index]?

/-- What is visible of the modules around the module at an address, from the inside out: of each
what comes before the nested module that leads to the address. -/
def enclosingAt (module : ModuleDef) (types : Assignment) : Address → List View
  | [] => []
  | position :: path => module.visibleAt types position path :: module.enclosingAt types path

def typeAt (module : ModuleDef) (types : Assignment) (path : Address) : ModuleType :=
  ⟨imported (module.typedAt types path), exported (module.typedAt types path)⟩

/-- An assignment types a module tree in which a module has at most `limit` modules around it: each
definition has the type that its rule gives, and no module imports or exports a name twice. -/
structure IsTyping (limit : Nat) (module : ModuleDef) (types : Assignment) : Prop where
  rule : ∀ path position definition, (module.definitionsAt path)[position]? = some definition →
    Rule (module.visibleAt types position path) (module.enclosingAt types path)
      (module.typeAt types (position :: path)) definition (types (position :: path))
  distinctImports : ∀ path, ((module.typeAt types path).imports.map Prod.fst).Nodup
  distinctExports : ∀ path, ((module.typeAt types path).exports.map Prod.fst).Nodup
  nesting : ∀ path position name definitions,
    (module.definitionsAt path)[position]? = some (.nested name definitions) →
      (position :: path).length ≤ limit

theorem declared_append (first second : List (Definition × ItemType)) (kind : ItemKind) :
    declared (first ++ second) kind = declared first kind ++ declared second kind :=
  List.filterMap_append

theorem imported_append (first second : List (Definition × ItemType)) :
    imported (first ++ second) = imported first ++ imported second := List.filterMap_append

theorem exported_append (first second : List (Definition × ItemType)) :
    exported (first ++ second) = exported first ++ exported second := List.filterMap_append

theorem declared_cons (definition : Definition) (item : ItemType)
    (rest : List (Definition × ItemType)) (kind : ItemKind) :
    declared ((definition, item) :: rest) kind =
      (if definition.space item = some kind then [item] else []) ++ declared rest kind := by
  by_cases same : definition.space item = some kind <;> simp [declared, same]

theorem imported_cons (definition : Definition) (item : ItemType)
    (rest : List (Definition × ItemType)) :
    imported ((definition, item) :: rest) =
      (definition.importEntry item).toList ++ imported rest := by
  cases named : definition.importEntry item <;> simp [imported, named]

theorem exported_cons (definition : Definition) (item : ItemType)
    (rest : List (Definition × ItemType)) :
    exported ((definition, item) :: rest) =
      (definition.exportEntry item).toList ++ exported rest := by
  cases named : definition.exportEntry item <;> simp [exported, named]

theorem definitionsAt_nested {module : ModuleDef} {path : Address} {position : Nat} {name : Name}
    {definitions : List Definition}
    (found : (module.definitionsAt path)[position]? = some (.nested name definitions)) :
    module.definitionsAt (position :: path) = definitions := by
  rw [definitionsAt, found]

theorem exists_nested_of_definitionsAt {module : ModuleDef} {path : Address} {position : Nat}
    (inhabited : module.definitionsAt (position :: path) ≠ []) :
    ∃ name, (module.definitionsAt path)[position]? =
      some (.nested name (module.definitionsAt (position :: path))) := by
  rw [definitionsAt] at inhabited ⊢
  split
  next name definitions found => exact ⟨name, found⟩
  next other =>
    split at inhabited
    next name definitions found => exact absurd found (other name definitions)
    next => exact absurd rfl inhabited

theorem length_enclosingAt (module : ModuleDef) (types : Assignment) (path : Address) :
    (module.enclosingAt types path).length = path.length := by
  induction path with
  | nil => rfl
  | cons position path ih => rw [enclosingAt, List.length_cons, List.length_cons, ih]

theorem length_typedAt (module : ModuleDef) (types : Assignment) (path : Address) :
    (module.typedAt types path).length = (module.definitionsAt path).length :=
  List.length_mapIdx

theorem typedAt_getElem? {module : ModuleDef} {types : Assignment} {path : Address}
    {position : Nat} {definition : Definition}
    (found : (module.definitionsAt path)[position]? = some definition) :
    (module.typedAt types path)[position]? = some (definition, types (position :: path)) := by
  rw [typedAt, List.getElem?_mapIdx, found]
  rfl

theorem typedAt_take_succ {module : ModuleDef} {types : Assignment} {path : Address}
    {position : Nat} {definition : Definition}
    (found : (module.definitionsAt path)[position]? = some definition) :
    (module.typedAt types path).take (position + 1) =
      (module.typedAt types path).take position ++ [(definition, types (position :: path))] := by
  rw [List.take_add_one, typedAt_getElem? found]
  rfl

theorem typedAt_split {module : ModuleDef} {types : Assignment} {path : Address}
    {position : Nat} {definition : Definition}
    (found : (module.definitionsAt path)[position]? = some definition) :
    module.typedAt types path = (module.typedAt types path).take position ++
      (definition, types (position :: path)) ::
        (module.typedAt types path).drop (position + 1) := by
  conv_lhs => rw [← List.take_append_drop (position + 1) (module.typedAt types path)]
  rw [typedAt_take_succ found, List.append_assoc]
  rfl

/-! ## Checks that follow a typing -/

/-- A check has got as far as a position of the module at an address, and its scopes hold what the
typing says. -/
structure Follows (module : ModuleDef) (types : Assignment) (path : Address) (position : Nat)
    (outer : List Enclosing) (scope : Scope) : Prop where
  accumulating : scope.state = .accumulating
  spaces : ∀ kind, scope.spaces.get kind =
    declared ((module.typedAt types path).take position) kind
  imports : scope.imports = imported ((module.typedAt types path).take position)
  exports : scope.exports = exported ((module.typedAt types path).take position)
  enclosing : outer.map Enclosing.view = module.enclosingAt types path

namespace Follows

variable {module : ModuleDef} {types : Assignment} {path : Address} {position : Nat}
  {outer : List Enclosing} {scope : Scope} {definition : Definition}

theorem opened {scopePath : Path} (enclosing : outer.map Enclosing.view =
    module.enclosingAt types path) : module.Follows types path 0 outer (.opened scopePath) where
  accumulating := rfl
  spaces := by
    intro kind
    cases kind <;> rfl
  imports := rfl
  exports := rfl
  enclosing := enclosing

theorem view_eq (follows : module.Follows types path position outer scope) :
    scope.view = module.visibleAt types position path := by
  funext kind index
  rw [Scope.view, follows.spaces, visibleAt]

/-- A module nested at this point sees around it what the typing makes visible there. -/
theorem enclosing_nested (follows : module.Follows types path position outer scope) :
    (scope.seen :: outer).map Enclosing.view = module.enclosingAt types (position :: path) := by
  rw [List.map_cons, Scope.view_seen, follows.view_eq, follows.enclosing, enclosingAt]

theorem length_outer (follows : module.Follows types path position outer scope) :
    outer.length = path.length := by
  rw [← length_enclosingAt module types path, ← follows.enclosing, List.length_map]

theorem extended (follows : module.Follows types path position outer scope)
    (found : (module.definitionsAt path)[position]? = some definition) :
    module.Follows types path (position + 1) outer
      (scope.extended definition (types (position :: path))) where
  accumulating := follows.accumulating
  spaces := by
    intro kind
    rw [Scope.get_extended, follows.spaces, typedAt_take_succ found, declared_append,
      declared_cons]
    exact congrArg _ (List.append_nil _).symm
  imports := by
    rw [typedAt_take_succ found, imported_append, imported_cons, ← follows.imports]
    exact congrArg _ (List.append_nil _).symm
  exports := by
    rw [typedAt_take_succ found, exported_append, exported_cons, ← follows.exports]
    exact congrArg _ (List.append_nil _).symm
  enclosing := follows.enclosing

theorem moduleType_eq
    (follows : module.Follows types path (module.definitionsAt path).length outer scope) :
    (⟨scope.imports, scope.exports⟩ : ModuleType) = module.typeAt types path := by
  rw [follows.imports, follows.exports, ← length_typedAt module types path, List.take_length,
    typeAt]

end Follows

end ModuleDef

end Linkage

import Linkage.Proofs.Context

/-!
# Names of modules

The name of a module goes into paths, and paths go into events and errors; no check looks at one.
`Renames` relates definitions that differ at most in the names of the modules in them. Two such
definitions are checked in the same way, each in the scope of its own module tree: the step is
`interchange_of_renames`, which holds in both directions, and two results that persist in each other
differ only in the names that an error mentions (`Persists.kind_eq`).
-/

set_option autoImplicit false

namespace Linkage

/-! ## Kinds of faults -/

/-- What a fault is apart from the names in it: a validation error of a class, a nested module that
was never given, or a misuse. -/
inductive FaultKind where
  | invalid (kind : Option ErrorKind)
  | missingModule
  | misuse
deriving DecidableEq, Repr

def Fault.kind : Fault → FaultKind
  | .invalid error => .invalid error.cause.kind?
  | .missingModule _ => .missingModule
  | .misuse _ => .misuse

theorem Fault.Alike.kind_eq {fault other : Fault} (alike : fault.Alike other) :
    fault.kind = other.kind := by
  cases alike <;> rfl

theorem Fault.Mendable.kind_eq {fault : Fault} (mendable : fault.Mendable 0) :
    fault.kind = .invalid (some .unboundIndex) := by
  obtain none | ⟨error, same, unbound⟩ := mendable
  · exact absurd none (Nat.lt_irrefl 0)
  · rw [same, kind, unbound]

/-- Results that are found again in each other are the same but for names. A context can only mend
an index that is unbound, and what it mends would have to be mended the other way round, too. -/
theorem Persists.kind_eq {α : Type} {result other : Except Fault α}
    (forward : Persists 0 Eq result other) (backward : Persists 0 Eq other result) :
    result.mapError Fault.kind = other.mapError Fault.kind := by
  cases forward with
  | ok found => rw [found]
  | error alike => exact congrArg Except.error alike.kind_eq
  | mended mendable =>
      cases backward with
      | error alike => exact congrArg Except.error alike.kind_eq.symm
      | mended mendableBack =>
          exact congrArg Except.error (mendable.kind_eq.trans mendableBack.kind_eq.symm)

/-! ## Renamed modules -/

inductive Definition.Renames : Definition → Definition → Prop where
  | kept (definition : Definition) : Renames definition definition
  | nested {name other : Name} {definitions others : List Definition}
      (each : List.Forall₂ Renames definitions others) :
      Renames (.nested name definitions) (.nested other others)

def ModuleDef.Renames (module other : ModuleDef) : Prop :=
  List.Forall₂ Definition.Renames module.definitions other.definitions

/-- Induction on renamed definitions, with a hypothesis for each pair in a nested module. -/
theorem Definition.Renames.induct {motive : Definition → Definition → Prop}
    (kept : ∀ definition, motive definition definition)
    (nested : ∀ name other definitions others, List.Forall₂ motive definitions others →
      motive (.nested name definitions) (.nested other others))
    {definition other : Definition} (renames : definition.Renames other) :
    motive definition other := by
  induction definition using Definition.nestedInduction generalizing other with
  | plain definition notNested =>
      cases renames with
      | kept => exact kept definition
      | nested _ => exact absurd rfl (notNested _ _)
  | nested name definitions ih =>
      cases renames with
      | kept => exact kept _
      | nested each =>
          apply nested
          induction each with
          | nil => exact .nil
          | cons first _ later =>
              refine .cons (ih _ List.mem_cons_self first) (later ?_)
              exact fun inner inside => ih inner (List.mem_cons_of_mem _ inside)

theorem Definition.Renames.symm {definition other : Definition}
    (renames : definition.Renames other) : other.Renames definition := by
  refine renames.induct (motive := fun definition other => other.Renames definition) ?kept ?nested
  case kept =>
    intro definition
    exact .kept definition
  case nested =>
    intro name other definitions others each
    exact .nested each.flip

theorem ModuleDef.Renames.symm {module other : ModuleDef} (renames : module.Renames other) :
    other.Renames module :=
  renames.flip.imp fun _ _ renamed => renamed.symm

namespace Validation

variable {options : Options} {outer wider : List Enclosing} {definitions others : List Definition}

/-- Two definitions are checked in the same way, wherever each of them stands. -/
def Interchange (options : Options) (definition other : Definition) : Prop :=
  ∀ (outer wider : List Enclosing) (scope : Scope) (path : Path), Enclosing.Widen 0 outer wider →
    Persists 0 (fun next later => later = next.moved path)
      (define options outer scope definition).result
      (define options wider (scope.moved path) other).result

theorem persists_defineAll_of_interchange
    (each : List.Forall₂ (Interchange options) definitions others) (scope : Scope) (path : Path)
    (widen : Enclosing.Widen 0 outer wider) :
    Persists 0 (fun next later => later = next.moved path)
      (defineAll options outer scope definitions).result
      (defineAll options wider (scope.moved path) others).result := by
  induction each generalizing scope with
  | nil => exact .ok rfl
  | cons first _ ih =>
      rw [result_defineAll_cons, result_defineAll_cons]
      apply (first outer wider scope path widen).bind
      intro next later same
      subst same
      exact ih next

theorem persists_inScope_of_interchange
    (each : List.Forall₂ (Interchange options) definitions others) (place path : Path)
    (widen : Enclosing.Widen 0 outer wider) :
    Persists 0 Eq
      (inScope options outer place fun scope => defineAll options outer scope definitions).result
      (inScope options wider path fun scope => defineAll options wider scope others).result :=
  persists_inScope_of_body place path widen (.inl rfl : Room options 0 wider 0)
    (persists_defineAll_of_interchange each (.opened place) path widen)

/-- A nested module may be replaced by another one whose definitions are checked in the same way,
whatever their names. -/
theorem interchange_nested (each : List.Forall₂ (Interchange options) definitions others)
    (name other : Name) :
    Interchange options (.nested name definitions) (.nested other others) := by
  intro outer wider scope path widen
  have within : scope.view.Within (scope.moved path).view := fun _ _ _ visible => visible
  have accepted := persists_inScope_of_interchange each (scope.nestedPath name)
    ((scope.moved path).nestedPath other) (widen.cons within)
  rw [define, define, Traced.result_bind, Traced.result_bind]
  apply accepted.bind_eq
  intro type
  rw [result_addModule, result_addModule]
  exact scope.persists_recordIn path (.ofModule type) (some .module)

theorem interchange_of_renames (options : Options) {definition other : Definition}
    (renames : definition.Renames other) : Interchange options definition other := by
  refine renames.induct ?kept ?nested
  case kept =>
    intro definition outer wider scope path widen
    exact portable options definition scope path widen (.inl rfl)
  case nested =>
    intro name other definitions others each
    exact interchange_nested each name other

/-- Checks of modules that differ in names, in the same surroundings and at any two places. -/
theorem kind_inScope_of_renames (options : Options) (outer : List Enclosing) (place path : Path)
    {module other : ModuleDef} (renames : module.Renames other) :
    (inScope options outer place fun scope =>
        defineAll options outer scope module.definitions).result.mapError Fault.kind =
      (inScope options outer path fun scope =>
        defineAll options outer scope other.definitions).result.mapError Fault.kind := by
  have persists : ∀ {module other : ModuleDef} (place path : Path), module.Renames other →
      Persists 0 Eq
        (inScope options outer place fun scope =>
          defineAll options outer scope module.definitions).result
        (inScope options outer path fun scope =>
          defineAll options outer scope other.definitions).result := by
    intro module other place path renames
    have each : List.Forall₂ (Interchange options) module.definitions other.definitions :=
      List.Forall₂.imp (fun _ _ => interchange_of_renames options) renames
    exact persists_inScope_of_interchange each place path (.refl outer)
  exact (persists place path renames).kind_eq (persists path place renames.symm)

end Validation

namespace ModuleDef

/-- **Names of modules are for reports only.** Two modules that differ at most in names, their own
and those of the modules in them, named or not, come to the same type, or fail both, with faults of
the same kind and the same class of error: alone, and nested in any scope. -/
theorem validate_renamed (options : Validation.Options) {module other : ModuleDef}
    (renames : module.Renames other) :
    (module.validate options).result.mapError Fault.kind =
      (other.validate options).result.mapError Fault.kind ∧
    ∀ (outer : List Enclosing) (parent : Scope),
      (module.validateIn options outer parent).result.mapError Fault.kind =
        (other.validateIn options outer parent).result.mapError Fault.kind :=
  ⟨Validation.kind_inScope_of_renames options [] module.path other.path renames,
    fun outer parent => Validation.kind_inScope_of_renames options (parent.seen :: outer)
      (parent.nestedPath module.name) (parent.nestedPath other.name) renames⟩

/-- A module with a type and a module inside that takes a type of the given index from it. -/
def gallery (outer inner : Name) (index : Nat) : ModuleDef where
  name := outer
  definitions :=
    [.typeItem (.complete (.func [] [])),
      .nested inner [.outerAlias ⟨0, index, .ofKind .type⟩,
        .importItem "door" (.indexed (.ofKind .func) 0)],
      .exportItem "room" ⟨.ofKind .module, 0⟩]

theorem gallery_renames (outer inner otherOuter otherInner : Name) (index : Nat) :
    (gallery outer inner index).Renames (gallery otherOuter otherInner index) :=
  .cons (.kept _) (.cons (.nested (.cons (.kept _) (.cons (.kept _) .nil)))
    (.cons (.kept _) .nil))

theorem validate_renamed_gallery :
    ((gallery "east" [] 0).validate {}).result =
      .ok ⟨[], [("room", .module [("door", .func [] [])] [])]⟩ ∧
    ((gallery [] "west" 0).validate {}).result.mapError Fault.kind =
      .ok ⟨[], [("room", .module [("door", .func [] [])] [])]⟩ ∧
    ((gallery "east" [] 1).validate {}).result =
      .error (.invalid ⟨"east/module[0]", .unboundOuter .type 1 "east" 1⟩) ∧
    ((gallery [] "west" 1).validate {}).result.mapError Fault.kind =
      .error (.invalid (some .unboundIndex)) := by
  have accepted : ((gallery "east" [] 0).validate {}).result =
      .ok ⟨[], [("room", .module [("door", .func [] [])] [])]⟩ := by decide +kernel
  have refused : ((gallery "east" [] 1).validate {}).result =
      .error (.invalid ⟨"east/module[0]", .unboundOuter .type 1 "east" 1⟩) := by decide +kernel
  refine ⟨accepted, ?_, refused, ?_⟩
  · rw [← (validate_renamed {} (gallery_renames "east" [] [] "west" 0)).1, accepted]
    rfl
  · rw [← (validate_renamed {} (gallery_renames "east" [] [] "west" 1)).1, refused]
    rfl

end ModuleDef

end Linkage

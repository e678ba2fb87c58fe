import Linkage.Proofs.Context
import Linkage.Proofs.ForwardPass
import Linkage.Proofs.Typing

/-!
# The limit of nesting

The limit is looked at in one place only, where a module is entered. Under two limits a check goes
the same way until it enters a module that one of them does not allow: `Limited` compares the two
results, and `limited_inScope` says so of every module. A module that is accepted is no higher than
allowed (`length_add_heights_le_of_inScope`), so its height decides under which limits it is.
-/

set_option autoImplicit false

namespace Linkage

/-! ## Modules of a tree -/

namespace ModuleDef

variable {module : ModuleDef}

/-- The addresses of the modules of a tree. As many modules of the tree are around a module as its
address is long; the address of the whole tree is empty. -/
inductive HasModule (module : ModuleDef) : Address → Prop where
  | root : HasModule module []
  | nested {path : Address} {position : Nat} {name : Name} {definitions : List Definition}
      (found : (module.definitionsAt path)[position]? = some (.nested name definitions)) :
      HasModule module (position :: path)

theorem length_add_heights_le {path : Address} (inhabited : module.definitionsAt path ≠ []) :
    path.length + Definition.heights (module.definitionsAt path) ≤ module.height := by
  induction path with
  | nil => exact Nat.le_of_eq (Nat.zero_add _)
  | cons position path ih =>
      obtain ⟨name, found⟩ := exists_nested_of_definitionsAt inhabited
      have inside := List.mem_of_getElem? found
      have outer := ih (List.ne_nil_of_mem inside)
      have higher := Definition.height_le_heights inside
      rw [Definition.height] at higher
      rw [List.length_cons]
      omega

theorem HasModule.length_le {path : Address} (present : module.HasModule path) :
    path.length ≤ module.height := by
  cases present with
  | root => exact Nat.zero_le _
  | nested found =>
      have inside := List.mem_of_getElem? found
      have outer := length_add_heights_le (List.ne_nil_of_mem inside)
      have higher := Definition.height_le_heights inside
      rw [Definition.height] at higher
      rw [List.length_cons]
      omega

end ModuleDef

theorem Definition.heights_eq_zero_or_mem (definitions : List Definition) :
    Definition.heights definitions = 0 ∨
      ∃ definition ∈ definitions, definition.height = Definition.heights definitions := by
  induction definitions with
  | nil => exact .inl rfl
  | cons first rest ih =>
      rw [Definition.heights]
      rcases Nat.le_total (Definition.heights rest) first.height with lower | higher
      · exact .inr ⟨first, List.mem_cons_self, (Nat.max_eq_left lower).symm⟩
      · rw [Nat.max_eq_right higher]
        refine ih.imp_right ?_
        rintro ⟨definition, inside, same⟩
        exact ⟨definition, List.mem_cons_of_mem _ inside, same⟩

namespace ModuleDef

variable {module : ModuleDef}

/-- From a definition at an address one gets as deep as the definition is high. -/
theorem exists_hasModule_of_height {definition : Definition} {path : Address} {position : Nat}
    (present : module.HasModule path)
    (found : (module.definitionsAt path)[position]? = some definition) :
    ∃ address, module.HasModule address ∧ address.length = path.length + definition.height := by
  induction definition using Definition.nestedInduction generalizing path position with
  | plain definition notNested =>
      have flat : definition.height = 0 := by
        cases definition with
        | nested name definitions => exact absurd rfl (notNested name definitions)
        | _ => rfl
      exact ⟨path, present, by omega⟩
  | nested name definitions ih =>
      have here : module.HasModule (position :: path) := .nested found
      rw [Definition.height]
      rcases Definition.heights_eq_zero_or_mem definitions with flat | ⟨inner, inside, same⟩
      · exact ⟨position :: path, here, by rw [List.length_cons]; omega⟩
      · obtain ⟨place, deeper⟩ := List.getElem?_of_mem inside
        rw [← definitionsAt_nested found] at deeper
        obtain ⟨address, reached, length⟩ := ih inner inside here deeper
        exact ⟨address, reached, by rw [length, List.length_cons]; omega⟩

theorem exists_hasModule (module : ModuleDef) :
    ∃ address, module.HasModule address ∧ address.length = module.height := by
  rcases Definition.heights_eq_zero_or_mem module.definitions with flat | ⟨inner, inside, same⟩
  · exact ⟨[], .root, flat.symm⟩
  · obtain ⟨position, found⟩ := List.getElem?_of_mem inside
    obtain ⟨address, present, length⟩ := exists_hasModule_of_height .root found
    exact ⟨address, present, by rw [length, same, List.length_nil, Nat.zero_add, height]⟩

/-- If a module has `base` modules around it, none in it has more than `limit`. -/
def Fits (module : ModuleDef) (base limit : Nat) : Prop :=
  ∀ address, module.HasModule address → base + address.length ≤ limit

theorem fits_iff {base limit : Nat} : module.Fits base limit ↔ base + module.height ≤ limit := by
  constructor
  · intro fits
    obtain ⟨address, present, length⟩ := module.exists_hasModule
    exact length ▸ fits address present
  · intro fits address present
    have within := present.length_le
    omega

end ModuleDef

/-! ## Results under two limits -/

/-- A result under a limit beside the result under a larger one: they are the same, or the module is
too high for the smaller limit and the first result is the error that says so. -/
def Limited {α : Type} (tooHigh : Prop) (cause : Cause) (result larger : Except Fault α) : Prop :=
  result = larger ∨ tooHigh ∧ ∃ place, result = .error (.invalid ⟨place, cause⟩)

namespace Limited

variable {α β : Type} {tooHigh higher : Prop} {cause : Cause}

theorem bind {first larger : Except Fault α} {step largerStep : α → Except Fault β}
    (limited : Limited tooHigh cause first larger)
    (steps : ∀ value, Limited tooHigh cause (step value) (largerStep value)) :
    Limited tooHigh cause (first >>= step) (larger >>= largerStep) := by
  rcases limited with same | ⟨high, place, failed⟩
  · subst same
    cases first with
    | ok value => exact steps value
    | error fault => exact .inl rfl
  · subst failed
    exact .inr ⟨high, place, rfl⟩

theorem imp {result larger : Except Fault α} (limited : Limited tooHigh cause result larger)
    (implies : tooHigh → higher) : Limited higher cause result larger :=
  limited.imp_right fun ⟨high, failed⟩ => ⟨implies high, failed⟩

end Limited

namespace Validation

variable {options other : Options} {outer : List Enclosing} {scope next filled : Scope}
  {path : Path} {definitions : List Definition}

/-- The check of a definition is limited: under a smaller limit it comes to the same, or to a module
that is one too deep. -/
def LimitedBy (options other : Options) (definition : Definition) : Prop :=
  ∀ {outer : List Enclosing} (scope : Scope), outer.length ≤ options.nesting →
    Limited (options.nesting < outer.length + definition.height)
      (.nesting (options.nesting + 1) options.nesting)
      (define options outer scope definition).result (define other outer scope definition).result

theorem limited_defineAll
    (each : ∀ definition ∈ definitions, LimitedBy options other definition) (scope : Scope)
    (shallow : outer.length ≤ options.nesting) :
    Limited (options.nesting < outer.length + Definition.heights definitions)
      (.nesting (options.nesting + 1) options.nesting)
      (defineAll options outer scope definitions).result
      (defineAll other outer scope definitions).result := by
  induction definitions generalizing scope with
  | nil => exact .inl rfl
  | cons definition rest ih =>
      rw [result_defineAll_cons, result_defineAll_cons, Definition.heights]
      have first := each definition List.mem_cons_self scope shallow
      apply (first.imp fun high => by omega).bind
      intro next
      have others : ∀ later ∈ rest, LimitedBy options other later :=
        fun later inside => each later (List.mem_cons_of_mem _ inside)
      exact (ih others next).imp fun high => by omega

theorem limited_inScope_of_each (le : options.nesting ≤ other.nesting)
    (each : ∀ definition ∈ definitions, LimitedBy options other definition)
    (outer : List Enclosing) (path : Path) :
    Limited (options.nesting < outer.length + Definition.heights definitions)
      (.nesting (max (options.nesting + 1) outer.length) options.nesting)
      (inScope options outer path fun child => defineAll options outer child definitions).result
      (inScope other outer path fun child => defineAll other outer child definitions).result := by
  by_cases shallow : outer.length ≤ options.nesting
  · rw [result_inScope_of_shallow shallow, result_inScope_of_shallow (Nat.le_trans shallow le),
      Nat.max_eq_left (Nat.le_succ_of_le shallow)]
    apply (limited_defineAll each (.opened path) shallow).bind
    intro filled
    exact .inl rfl
  · have deep : options.nesting < outer.length := Nat.lt_of_not_le shallow
    rw [Nat.max_eq_right deep]
    exact .inr ⟨by omega, path.text, result_inScope_of_deep deep⟩

theorem limitedBy (le : options.nesting ≤ other.nesting) (definition : Definition) :
    LimitedBy options other definition := by
  induction definition using Definition.nestedInduction with
  | plain definition notNested =>
      intro outer scope _
      cases definition with
      | nested name definitions => exact absurd rfl (notNested name definitions)
      | _ => exact .inl rfl
  | nested name definitions ih =>
      intro outer scope shallow
      have inner := limited_inScope_of_each le ih (scope.seen :: outer) (scope.nestedPath name)
      rw [List.length_cons, Nat.max_eq_left (Nat.succ_le_succ shallow)] at inner
      rw [define, define, Traced.result_bind, Traced.result_bind, Definition.height]
      apply (inner.imp fun high => by omega).bind
      intro type
      exact .inl rfl

/-- Under a smaller limit a module comes to the same result, or it is too high and the first module
that is entered too deep is reported: the module itself, or else one that is one too deep. -/
theorem limited_inScope (le : options.nesting ≤ other.nesting) (outer : List Enclosing)
    (path : Path) (definitions : List Definition) :
    Limited (options.nesting < outer.length + Definition.heights definitions)
      (.nesting (max (options.nesting + 1) outer.length) options.nesting)
      (inScope options outer path fun child => defineAll options outer child definitions).result
      (inScope other outer path fun child => defineAll other outer child definitions).result :=
  limited_inScope_of_each le (fun definition _ => limitedBy le definition) outer path

/-- Limits that a module fits make no difference to its check. -/
theorem result_inScope_of_room
    (room : outer.length + Definition.heights definitions ≤ options.nesting)
    (otherRoom : outer.length + Definition.heights definitions ≤ other.nesting) (path : Path) :
    (inScope options outer path fun child => defineAll options outer child definitions).result =
      (inScope other outer path fun child => defineAll other outer child definitions).result := by
  rcases Nat.le_total options.nesting other.nesting with le | le
  · rcases limited_inScope le outer path definitions with same | ⟨high, _⟩
    · exact same
    · omega
  · rcases limited_inScope le outer path definitions with same | ⟨high, _⟩
    · exact same.symm
    · omega

/-! ## Accepted modules -/

theorem length_add_heights_le_of_defineAll
    (each : ∀ definition ∈ definitions, ∀ {outer : List Enclosing} {scope next : Scope},
      outer.length ≤ options.nesting → (define options outer scope definition).result = .ok next →
      outer.length + definition.height ≤ options.nesting)
    (shallow : outer.length ≤ options.nesting)
    (accepted : (defineAll options outer scope definitions).result = .ok filled) :
    outer.length + Definition.heights definitions ≤ options.nesting := by
  induction definitions generalizing scope with
  | nil => exact shallow
  | cons definition rest ih =>
      rw [result_defineAll_cons, bind_eq_ok_iff] at accepted
      obtain ⟨next, here, later⟩ := accepted
      have first := each definition List.mem_cons_self shallow here
      have others := ih (fun later inside => each later (List.mem_cons_of_mem _ inside)) later
      rw [Definition.heights]
      omega

theorem length_add_height_le (definition : Definition) :
    ∀ {outer : List Enclosing} {scope next : Scope}, outer.length ≤ options.nesting →
      (define options outer scope definition).result = .ok next →
      outer.length + definition.height ≤ options.nesting := by
  induction definition using Definition.nestedInduction with
  | plain definition notNested =>
      intro outer scope next shallow _
      cases definition with
      | nested name definitions => exact absurd rfl (notNested name definitions)
      | _ => exact shallow
  | nested name definitions ih =>
      intro outer scope next shallow accepted
      rw [define, Traced.result_bind, bind_eq_ok_iff] at accepted
      obtain ⟨type, inner, _⟩ := accepted
      obtain ⟨room, filled, run, _⟩ := inScope_eq_ok_iff.mp inner
      have deeper := length_add_heights_le_of_defineAll ih room run
      rw [List.length_cons] at deeper
      rw [Definition.height]
      omega

/-- A module that is accepted is no higher than allowed. -/
theorem length_add_heights_le_of_inScope {type : ModuleType}
    (accepted : (inScope options outer path fun child =>
      defineAll options outer child definitions).result = .ok type) :
    outer.length + Definition.heights definitions ≤ options.nesting := by
  obtain ⟨shallow, filled, run, _⟩ := inScope_eq_ok_iff.mp accepted
  exact length_add_heights_le_of_defineAll (fun definition _ => length_add_height_le definition)
    shallow run

/-- A module that is accepted under one limit is accepted under every limit that it fits. -/
theorem inScope_of_room {type : ModuleType}
    (accepted : (inScope options outer path fun child =>
      defineAll options outer child definitions).result = .ok type)
    (room : outer.length + Definition.heights definitions ≤ other.nesting) :
    (inScope other outer path fun child =>
      defineAll other outer child definitions).result = .ok type := by
  rw [← accepted]
  exact result_inScope_of_room room (length_add_heights_le_of_inScope accepted) path

/-- What the limit does to the check of a module with `base` modules around it. A module that is
accepted is accepted under every larger limit, and with the same type. Under a smaller limit it is
accepted with the same type if all its modules fit; otherwise there is an error that says how deep
the first module is that does not, and nothing else. -/
structure Nests (base : Nat) (module : ModuleDef) (check : Options → Except Fault ModuleType) :
    Prop where
  larger : ∀ options other type, options.nesting ≤ other.nesting → check options = .ok type →
    check other = .ok type
  smaller : ∀ options other type, options.nesting ≤ other.nesting → check other = .ok type →
    module.Fits base options.nesting → check options = .ok type
  tooHigh : ∀ options other type, options.nesting ≤ other.nesting → check other = .ok type →
    ¬ module.Fits base options.nesting → ∃ place, check options =
      .error (.invalid ⟨place, .nesting (max (options.nesting + 1) base) options.nesting⟩)

theorem nests_inScope (outer : List Enclosing) (path : Path) (module : ModuleDef) :
    Nests outer.length module fun options => (inScope options outer path fun child =>
      defineAll options outer child module.definitions).result where
  larger := by
    intro options other type le accepted
    exact inScope_of_room accepted
      (Nat.le_trans (length_add_heights_le_of_inScope accepted) le)
  smaller := by
    intro options other type _ accepted fits
    exact inScope_of_room accepted (ModuleDef.fits_iff.mp fits)
  tooHigh := by
    intro options other type le accepted high
    rcases limited_inScope le outer path module.definitions with same | ⟨_, reported⟩
    · have room := length_add_heights_le_of_inScope (same.trans accepted)
      exact absurd (ModuleDef.fits_iff.mpr room) high
    · exact reported

end Validation

namespace ModuleDef

theorem result_validate_of_height {options other : Validation.Options} {module : ModuleDef}
    {type : ModuleType} (accepted : (module.validate options).result = .ok type)
    (fits : module.height ≤ other.nesting) : (module.validate other).result = .ok type := by
  refine Validation.inScope_of_room accepted ?_
  rw [List.length_nil, Nat.zero_add]
  exact fits

/-- **The limit of nesting.** It decides of a module only how high the module may be, alone and in
any scope, where the modules around the scope and the scope itself count. -/
theorem nests_validate (module : ModuleDef) :
    Validation.Nests 0 module (fun options => (module.validate options).result) ∧
    ∀ (outer : List Enclosing) (parent : Scope),
      Validation.Nests (outer.length + 1) module fun options =>
        (module.validateIn options outer parent).result :=
  ⟨Validation.nests_inScope [] module.path module,
    fun outer parent => Validation.nests_inScope (parent.seen :: outer)
      (parent.nestedPath module.name) module⟩

def tower : ModuleDef where
  name := [1]
  definitions :=
    [.importItem [2] (.complete (.func [] [])),
      .nested [3] [.nested [] [.importItem [4] (.complete (.memory ⟨1, none⟩))],
        .exportItem [5] ⟨.ofKind .module, 0⟩],
      .exportItem [6] ⟨.ofKind .module, 0⟩]

def towerType : ModuleType :=
  ⟨[([2], .func [] [])], [([6], .module [] [([5], .module [([4], .memory ⟨1, none⟩)] [])])]⟩

theorem nests_validate_tower :
    (tower.validate { nesting := 2 }).result = .ok towerType ∧
    (tower.validate { nesting := 7 }).result = .ok towerType ∧
    (∃ place, (tower.validate { nesting := 1 }).result =
      .error (.invalid ⟨place, .nesting 2 1⟩)) ∧
    (tower.validateIn { nesting := 3 } [] hostel).result = .ok towerType ∧
    (∃ place, (tower.validateIn { nesting := 2 } [] hostel).result =
      .error (.invalid ⟨place, .nesting 3 2⟩)) ∧
    ∃ place, (tower.validateIn { nesting := 0 } [hostel.seen] hostel).result =
      .error (.invalid ⟨place, .nesting 2 0⟩) := by
  obtain ⟨alone, within⟩ := nests_validate tower
  have high : ∀ {base limit : Nat}, limit < base + 2 → ¬ tower.Fits base limit := by
    intro base limit less fits
    have room := fits_iff.mp fits
    rw [show tower.height = 2 from rfl] at room
    omega
  have fits : tower.Fits 0 2 := fits_iff.mpr (by decide)
  have accepted : (tower.validate { nesting := 7 }).result = .ok towerType := by decide +kernel
  have acceptedIn : (tower.validateIn { nesting := 3 } [] hostel).result = .ok towerType := by
    decide +kernel
  have acceptedDeep : (tower.validateIn { nesting := 4 } [hostel.seen] hostel).result =
      .ok towerType := by decide +kernel
  have low := alone.smaller { nesting := 2 } { nesting := 7 } _ (by decide) accepted fits
  exact ⟨low, alone.larger { nesting := 2 } { nesting := 7 } _ (by decide) low,
    alone.tooHigh { nesting := 1 } { nesting := 7 } _ (by decide) accepted (high (by decide)),
    acceptedIn,
    (within [] hostel).tooHigh { nesting := 2 } { nesting := 3 } _ (by decide) acceptedIn
      (high (by decide)),
    (within [hostel.seen] hostel).tooHigh { nesting := 0 } { nesting := 4 } _ (by decide)
      acceptedDeep (high (by decide))⟩

end ModuleDef

end Linkage

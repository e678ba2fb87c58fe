import Linkage.Proofs.Completeness
import Linkage.Proofs.Growth

/-!
# What can be in the place of a result

A misuse is a fault of the checker and not of a module: an item in the space of another kind, a
scope that does not accept definitions, a kind that no space has. `Confined` says of a result that
only an error in the name of one module can be in its place and, where the circumstances are not
proper, a fault that is no error of a module. The functions of a check give results confined to the
module of their scope. What is proper for them is that the spaces keep their kinds and that the
references they are given name kinds.
-/

set_option autoImplicit false

namespace Linkage

/-- The spaces other than that of types hold items of their own kind. -/
def Scope.Kinded (scope : Scope) : Prop :=
  ∀ kind, kind ≠ .type → ∀ item ∈ scope.spaces.get kind, item.kind = kind

theorem Enclosing.view_kinded {ancestor : Enclosing} (kinded : ancestor.scope.Kinded) :
    View.Kinded ancestor.view := by
  intro kind index item found
  rw [Enclosing.view, Scope.lookup] at found
  split at found
  · by_cases isType : kind = .type
    · exact .inl isType
    · exact .inr (kinded kind isType item (List.mem_of_getElem? found))
  · cases found

theorem Scope.Kinded.of_change {scope next : Scope} (kinded : scope.Kinded)
    (change : scope.Change next) : next.Kinded := by
  have pushed : ∀ {kind : ItemKind} {item : ItemType}, kind = .type ∨ item.kind = kind →
      Scope.Kinded { scope with spaces := scope.spaces.push item kind } := by
    intro kind item fits other notType entry inside
    rw [Spaces.get_push] at inside
    split at inside
    next same =>
      subst same
      rcases List.mem_append.mp inside with before | new
      · exact kinded other notType entry before
      · rw [List.mem_singleton.mp new]
        exact fits.resolve_left notType
    next => exact kinded other notType entry inside
  cases change with
  | declared _ fits => exact pushed fits
  | imported _ _ => exact pushed (.inr rfl)
  | _ => exact kinded

/-! ## Confined results -/

/-- A result is found, or there is an error of the module at a place. Only in circumstances that are
not proper can there be another fault. -/
structure Confined {α : Type} (place : Name) (proper : Prop) (result : Except Fault α) : Prop where
  placed : ∀ error, result = .error (.invalid error) → error.path = place
  judged : proper → ∀ fault, result = .error fault → ∃ error, fault = .invalid error

namespace Confined

variable {α β : Type} {place : Name} {proper : Prop}

theorem ok (value : α) : Confined place proper (.ok value) where
  placed := by
    intro error failed
    cases failed
  judged := by
    intro _ fault failed
    cases failed

theorem invalid (cause : Cause) :
    Confined place proper (.error (.invalid ⟨place, cause⟩) : Except Fault α) where
  placed := by
    intro error failed
    cases failed
    rfl
  judged := by
    intro _ fault failed
    cases failed
    exact ⟨_, rfl⟩

theorem reject (scope : Scope) (cause : Cause) :
    Confined scope.name proper (scope.reject cause : Except Fault α) :=
  invalid cause

theorem other {fault : Fault} (improper : ¬ proper) (noError : ∀ error, fault ≠ .invalid error) :
    Confined place proper (.error fault : Except Fault α) where
  placed := by
    intro error failed
    exact absurd (Except.error.inj failed) (noError error)
  judged := fun holds => absurd holds improper

theorem misuse (improper : ¬ proper) (found : Misuse) :
    Confined place proper (.error (.misuse found) : Except Fault α) :=
  other improper fun _ => Fault.noConfusion

theorem bind {first : Except Fault α} {next : α → Except Fault β}
    (confined : Confined place proper first)
    (later : ∀ value, first = .ok value → Confined place proper (next value)) :
    Confined place proper (first >>= next) := by
  cases first with
  | ok value => exact later value rfl
  | error fault =>
      constructor
      · intro error failed
        exact confined.placed error (congrArg Except.error (Except.error.inj failed))
      · intro holds other failed
        exact confined.judged holds other (congrArg Except.error (Except.error.inj failed))

theorem of_uniform {result : Name → Except Fault α} (uniform : Instantiation.Uniform result)
    (context : Name) : Confined context proper (result context) := by
  rcases uniform with ⟨value, found⟩ | ⟨cause, failed⟩
  · exact found context ▸ .ok value
  · exact failed context ▸ .invalid cause

end Confined

namespace Scope

variable {scope : Scope} {proper : Prop}

theorem confined_resolve (scope : Scope) (kind : ItemKind) (index : Nat) :
    Confined scope.name proper (scope.resolve kind index) := by
  unfold resolve resolveVisible
  split
  · exact .ok _
  · exact .reject _ _

theorem Kinded.kind_of_resolve (kinded : scope.Kinded) {kind : ItemKind} {index : Nat}
    {item : ItemType} (notType : kind ≠ .type) (found : scope.resolve kind index = .ok item) :
    item.kind = kind :=
  kinded kind notType item (List.mem_of_getElem? (resolve_eq_ok_iff.mp found))

/-- What stands in the space of instances is an instance. -/
theorem Kinded.instance_of_resolve (kinded : scope.Kinded) {index : Nat} {item : ItemType}
    (found : scope.resolve .inst index = .ok item) : ∃ exports, item.instance? = some exports := by
  have kind := kinded.kind_of_resolve (by decide) found
  cases item with
  | inst exports => exact ⟨exports, rfl⟩
  | core type => cases type <;> cases kind
  | module imports exports => cases kind

theorem Kinded.module_of_resolve (kinded : scope.Kinded) {index : Nat} {item : ItemType}
    (found : scope.resolve .module index = .ok item) : ∃ type, item.module? = some type := by
  have kind := kinded.kind_of_resolve (by decide) found
  cases item with
  | module imports exports => exact ⟨⟨imports, exports⟩, rfl⟩
  | core type => cases type <;> cases kind
  | inst exports => cases kind

theorem confined_instanceAt (kinded : proper → scope.Kinded) (index : Nat) :
    Confined scope.name proper (scope.instanceAt index) := by
  apply (scope.confined_resolve .inst index).bind
  intro item found
  split
  · exact .ok _
  next other =>
    refine .misuse (fun holds => ?_) _
    obtain ⟨exports, isInstance⟩ := (kinded holds).instance_of_resolve found
    cases other.symm.trans isInstance

theorem confined_moduleAt (kinded : proper → scope.Kinded) (index : Nat) :
    Confined scope.name proper (scope.moduleAt index) := by
  apply (scope.confined_resolve .module index).bind
  intro item found
  split
  · exact .ok _
  next other =>
    refine .misuse (fun holds => ?_) _
    obtain ⟨type, isModule⟩ := (kinded holds).module_of_resolve found
    cases other.symm.trans isModule

theorem confined_checkType (scope : Scope) (type : ItemType) :
    Confined scope.name proper (scope.checkType type) := by
  unfold checkType
  split
  · exact .ok _
  · exact .reject _ _

theorem confined_typeOfKind (scope : Scope) (kind : KindCode) (index : Nat) :
    Confined scope.name proper (scope.typeOfKind kind index) := by
  apply (scope.confined_resolve .type index).bind
  intro type _
  split
  · exact .ok _
  · exact .reject _ _

mutual

theorem confined_resolveType (scope : Scope) :
    ∀ type : TypeExpr, Confined scope.name proper (scope.resolveType type)
  | .complete type => scope.confined_checkType type
  | .indexed kind index => scope.confined_typeOfKind kind index
  | .inst exports => by
      rw [resolveType]
      apply (confined_resolveEntries scope .exports [] exports).bind
      intro _ _
      exact .ok _
  | .module imports exports => by
      rw [resolveType]
      apply (confined_resolveEntries scope .imports [] imports).bind
      intro _ _
      apply (confined_resolveEntries scope .exports [] exports).bind
      intro _ _
      exact .ok _

theorem confined_resolveEntries (scope : Scope) (role : Role) (seen : List Name) :
    ∀ entries : List (Name × TypeExpr),
      Confined scope.name proper (scope.resolveEntries role seen entries)
  | [] => .ok _
  | (name, type) :: rest => by
      rw [resolveEntries_cons]
      apply (confined_resolveType scope type).bind
      intro item _
      by_cases repeated : name ∈ seen
      · simp only [if_pos repeated]
        exact .reject _ _
      · simp only [if_neg repeated]
        apply (confined_resolveEntries scope role (name :: seen) rest).bind
        intro _ _
        exact .ok _

end

theorem confined_resolveItem (scope : Scope) (use : Use) {reference : ItemRef}
    (known : proper → ∃ kind, reference.kind.kind? = some kind) :
    Confined scope.name proper (scope.resolveItem use reference) := by
  unfold resolveItem
  split
  · split
    · exact scope.confined_resolve _ _
    next unknown =>
      refine .misuse (fun holds => ?_) _
      obtain ⟨kind, code⟩ := known holds
      rw [unknown] at code
      cases code
  · exact .reject _ _

theorem confined_resolveItems (scope : Scope) (use : Use) {references : List (Name × ItemRef)}
    (known : proper →
      ∀ reference ∈ references.map Prod.snd, ∃ kind, reference.kind.kind? = some kind) :
    Confined scope.name proper (scope.resolveItems use references) := by
  induction references with
  | nil => exact .ok _
  | cons first rest ih =>
      apply (scope.confined_resolveItem use fun holds =>
        known holds first.2 List.mem_cons_self).bind
      intro _ _
      apply (ih fun holds reference inside =>
        known holds reference (List.mem_cons_of_mem _ inside)).bind
      intro _ _
      exact .ok _

theorem confined_findExport (kinded : proper → scope.Kinded) (target : ExportAlias) :
    Confined scope.name proper (scope.findExport target) := by
  apply (confined_instanceAt kinded target.instanceIndex).bind
  intro exports _
  split
  · split
    · exact .reject _ _
    · split
      · exact .ok _
      · exact .reject _ _
  · exact .reject _ _

theorem confined_findOuter (scope : Scope) (outer : List Enclosing) (target : OuterAlias) :
    Confined scope.name proper (scope.findOuter outer target) := by
  unfold findOuter
  split
  · exact .reject _ _
  · split
    · exact .reject _ _
    · split
      · exact .reject _ _
      · exact .ok _

theorem confined_requireAccumulating {place : Name}
    (accumulating : proper → scope.state = .accumulating) :
    Confined place proper scope.requireAccumulating := by
  unfold requireAccumulating
  split
  · exact .ok _
  next closed => exact .misuse (fun holds => closed (accumulating holds)) _

theorem confined_declare {place : Name} {kind : ItemKind} {item : ItemType}
    (accumulating : proper → scope.state = .accumulating)
    (fits : proper → kind = .type ∨ item.kind = kind) :
    Confined place proper (scope.declare kind item) := by
  apply (confined_requireAccumulating accumulating).bind
  intro _ _
  split
  · exact .ok _
  next wrong => exact .misuse (fun holds => wrong (fits holds)) _

theorem confined_record {definition : Definition} {item : ItemType}
    (accumulating : proper → scope.state = .accumulating)
    (fits : proper →
      ∀ kind, definition.space item = some kind → kind = .type ∨ item.kind = kind) :
    Confined scope.name proper (scope.record definition item) := by
  have isOpen : Confined scope.name proper scope.requireAccumulating :=
    confined_requireAccumulating accumulating
  have plain : Confined scope.name proper (scope.recordIn item (definition.space item)) := by
    cases space : definition.space item with
    | none =>
        apply isOpen.bind
        intro _ _
        exact .ok _
    | some kind =>
        apply (confined_declare accumulating fun holds => fits holds kind space).bind
        intro _ _
        exact .ok _
  cases definition with
  | importItem name type =>
      have imported : Confined scope.name proper (scope.declareImport name item) := by
        apply isOpen.bind
        intro _ _
        split
        · exact .reject _ _
        · exact confined_declare accumulating fun _ => .inr rfl
      apply imported.bind
      intro _ _
      exact .ok _
  | exportItem name reference =>
      apply isOpen.bind
      intro _ _
      split
      · exact .reject _ _
      · exact .ok _
  | _ => exact plain

end Scope

/-! ## Definitions -/

def Definition.references : Definition → List ItemRef
  | .instantiate _ arguments => arguments.map Prod.snd
  | .tuple exports => exports.map Prod.snd
  | .exportItem _ item => [item]
  | _ => []

namespace Validation

variable {options : Options} {outer : List Enclosing} {scope : Scope} {definition : Definition}
  {proper : Prop}

theorem confined_itemOf (notNested : ∀ name inner, definition ≠ .nested name inner)
    (given : proper → definition ≠ .absent) (kinded : proper → scope.Kinded)
    (known : proper →
      ∀ reference ∈ definition.references, ∃ kind, reference.kind.kind? = some kind) :
    Confined scope.name proper (itemOf options outer scope definition) := by
  cases definition with
  | typeItem type => exact scope.confined_resolveType type
  | importItem name type => exact scope.confined_resolveType type
  | nested name inner => exact absurd rfl (notNested name inner)
  | absent => exact .other (fun holds => given holds rfl) fun _ => Fault.noConfusion
  | instantiate moduleIndex arguments =>
      apply (Confined.of_uniform (Instantiation.uniform_checkNames arguments) scope.name).bind
      intro _ _
      apply (Scope.confined_moduleAt kinded moduleIndex).bind
      intro type _
      apply (scope.confined_resolveItems .argument known).bind
      intro items _
      apply (Confined.of_uniform (Instantiation.uniform_instantiate type items) scope.name).bind
      intro _ _
      exact .ok _
  | tuple exports =>
      apply (Confined.of_uniform (Instantiation.uniform_checkNames exports) scope.name).bind
      intro _ _
      apply (scope.confined_resolveItems .tupleExport known).bind
      intro items _
      apply (Confined.of_uniform (Instantiation.uniform_ofItems items) scope.name).bind
      intro _ _
      exact .ok _
  | exportAlias target => exact Scope.confined_findExport kinded target
  | outerAlias target =>
      apply (scope.confined_findOuter outer target).bind
      intro _ _
      exact .ok _
  | exportItem name reference =>
      exact scope.confined_resolveItem .moduleExport fun holds =>
        known holds reference List.mem_cons_self

end Validation

end Linkage

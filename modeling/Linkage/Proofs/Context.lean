import Mathlib.Logic.Relation
import Linkage.Proofs.Growth

/-!
# Checks in a wider context

A check looks at the modules around it in two places only: an outer alias takes an entry of one of
them, and their number is compared with the nesting allowed. `Persists` compares the result of a
check with its result in a context that shows more: what was found is found again, and what failed
fails in the same way, unless the wider context is what was missing. From the steps it passes to
whole modules (`persists_inScope`), so modules that are accepted side by side are accepted one after
the other (`result_defineAll_asNested`).
-/

set_option autoImplicit false

namespace Linkage

inductive Fault.Alike : Fault → Fault → Prop where
  | refl (fault : Fault) : Alike fault fault
  | invalid (place other : Name) (cause : Cause) :
      Alike (.invalid ⟨place, cause⟩) (.invalid ⟨other, cause⟩)
  | missingModule (place other : Name) : Alike (.missingModule place) (.missingModule other)
  | notAccepting (place other : Name) (state : ScopeState) :
      Alike (.misuse (.notAccepting place state)) (.misuse (.notAccepting other state))

/-- Faults that a wider context can mend: an unbound index, and any fault at all if there are more
modules around. -/
def Fault.Mendable (more : Nat) (fault : Fault) : Prop :=
  0 < more ∨ ∃ error, fault = .invalid error ∧ error.cause.kind? = some .unboundIndex

/-- How a result is found again in a context with `more` modules around. -/
inductive Persists {α β : Type} (more : Nat) (related : α → β → Prop) :
    Except Fault α → Except Fault β → Prop where
  | ok {value : α} {other : β} (found : related value other) :
      Persists more related (.ok value) (.ok other)
  | error {fault other : Fault} (alike : fault.Alike other) :
      Persists more related (.error fault) (.error other)
  | mended {fault : Fault} (mendable : fault.Mendable more) (later : Except Fault β) :
      Persists more related (.error fault) later

namespace Persists

variable {α β γ δ : Type} {more : Nat}

theorem refl (result : Except Fault α) : Persists more Eq result result := by
  cases result with
  | error fault => exact .error (.refl fault)
  | ok value => exact .ok rfl

theorem bind {related : α → β → Prop} {next : γ → δ → Prop} {first : Except Fault α}
    {later : Except Fault β} {step : α → Except Fault γ} {laterStep : β → Except Fault δ}
    (persists : Persists more related first later)
    (steps : ∀ value other, related value other →
      Persists more next (step value) (laterStep other)) :
    Persists more next (first >>= step) (later >>= laterStep) := by
  cases persists with
  | ok found => exact steps _ _ found
  | error alike => exact .error alike
  | mended mendable => exact .mended mendable _

/-- A step on what is found again is a step on the same value. -/
theorem bind_eq {next : γ → δ → Prop} {first later : Except Fault α} {step : α → Except Fault γ}
    {laterStep : α → Except Fault δ} (persists : Persists more Eq first later)
    (steps : ∀ value, Persists more next (step value) (laterStep value)) :
    Persists more next (first >>= step) (later >>= laterStep) := by
  apply persists.bind
  intro value other same
  exact same ▸ steps value

theorem eq_ok {later : Except Fault α} {value : α} (persists : Persists more Eq (.ok value) later) :
    later = .ok value := by
  cases persists with
  | ok found => rw [found]

theorem eq_invalid {later : Except Fault α} {error : ValidationError}
    (persists : Persists 0 Eq (.error (.invalid error)) later)
    (bound : error.cause.kind? ≠ some .unboundIndex) :
    ∃ place, later = .error (.invalid ⟨place, error.cause⟩) := by
  cases persists with
  | error alike =>
      cases alike with
      | refl => exact ⟨error.path, rfl⟩
      | invalid place other cause => exact ⟨other, rfl⟩
  | mended mendable =>
      obtain none | ⟨_, same, unbound⟩ := mendable
      · exact absurd none (Nat.lt_irrefl 0)
      · cases same
        exact absurd unbound bound

theorem of_uniform {result : Name → Except Fault α} (uniform : Instantiation.Uniform result)
    (context other : Name) : Persists more Eq (result context) (result other) := by
  rcases uniform with ⟨value, found⟩ | ⟨cause, failed⟩
  · rw [found, found]
    exact .ok rfl
  · rw [failed, failed]
    exact .error (.invalid context other cause)

end Persists

/-! ## Steps that stay inside a module -/

namespace Scope

variable {α β : Type} {more : Nat}

def moved (path : Path) (scope : Scope) : Scope := { scope with path := path }

variable (scope : Scope) (path : Path)

theorem persists_reject (related : α → β → Prop) (cause : Cause) :
    Persists more related (scope.reject cause) ((scope.moved path).reject cause) :=
  .error (.invalid _ _ _)

theorem persists_resolve (kind : ItemKind) (index : Nat) :
    Persists more Eq (scope.resolve kind index) ((scope.moved path).resolve kind index) := by
  have same : (scope.moved path).view = scope.view := rfl
  rw [resolve, resolve, resolveVisible, resolveVisible, lookup_length, lookup_length, same]
  cases scope.view kind index with
  | none => exact scope.persists_reject path Eq _
  | some item => exact .ok rfl

theorem persists_instanceAt (index : Nat) :
    Persists more Eq (scope.instanceAt index) ((scope.moved path).instanceAt index) := by
  apply (scope.persists_resolve path .inst index).bind_eq
  intro item
  exact .refl _

theorem persists_moduleAt (index : Nat) :
    Persists more Eq (scope.moduleAt index) ((scope.moved path).moduleAt index) := by
  apply (scope.persists_resolve path .module index).bind_eq
  intro item
  exact .refl _

theorem persists_checkType (type : ItemType) :
    Persists more Eq (scope.checkType type) ((scope.moved path).checkType type) := by
  unfold checkType
  cases type.defect? with
  | none => exact .ok rfl
  | some defect => exact scope.persists_reject path Eq _

theorem persists_typeOfKind (kind : KindCode) (index : Nat) :
    Persists more Eq (scope.typeOfKind kind index) ((scope.moved path).typeOfKind kind index) := by
  apply (scope.persists_resolve path .type index).bind_eq
  intro type
  by_cases kinds : KindCode.ofKind type.kind = kind
  · simp only [if_pos kinds]
    exact .ok rfl
  · simp only [if_neg kinds]
    exact scope.persists_reject path Eq _

mutual

theorem persists_resolveType : ∀ type : TypeExpr,
    Persists more Eq (scope.resolveType type) ((scope.moved path).resolveType type)
  | .complete type => scope.persists_checkType path type
  | .indexed kind index => scope.persists_typeOfKind path kind index
  | .inst exports => by
      rw [resolveType, resolveType]
      apply (persists_resolveEntries .exports [] exports).bind_eq
      intro entries
      exact .ok rfl
  | .module imports exports => by
      rw [resolveType, resolveType]
      apply (persists_resolveEntries .imports [] imports).bind_eq
      intro importTypes
      apply (persists_resolveEntries .exports [] exports).bind_eq
      intro exportTypes
      exact .ok rfl

theorem persists_resolveEntries (role : Role) (seen : List Name) :
    ∀ entries : List (Name × TypeExpr),
    Persists more Eq (scope.resolveEntries role seen entries)
      ((scope.moved path).resolveEntries role seen entries)
  | [] => .ok rfl
  | (name, type) :: rest => by
      rw [resolveEntries_cons, resolveEntries_cons]
      apply (persists_resolveType type).bind_eq
      intro item
      by_cases repeated : name ∈ seen
      · simp only [if_pos repeated]
        exact scope.persists_reject path Eq _
      · simp only [if_neg repeated]
        apply (persists_resolveEntries role (name :: seen) rest).bind_eq
        intro items
        exact .ok rfl

end

theorem persists_resolveItem (use : Use) (item : ItemRef) :
    Persists more Eq (scope.resolveItem use item) ((scope.moved path).resolveItem use item) := by
  unfold resolveItem
  cases item.kind.isDefinition with
  | false => exact scope.persists_reject path Eq _
  | true =>
      rw [if_pos rfl, if_pos rfl]
      cases item.kind.kind? with
      | none => exact .refl _
      | some kind => exact scope.persists_resolve path kind item.index

theorem persists_resolveItems (use : Use) (references : List (Name × ItemRef)) :
    Persists more Eq (scope.resolveItems use references)
      ((scope.moved path).resolveItems use references) := by
  induction references with
  | nil => exact .ok rfl
  | cons reference rest ih =>
      apply (scope.persists_resolveItem path use reference.2).bind_eq
      intro item
      apply ih.bind_eq
      intro items
      exact .ok rfl

theorem persists_findExport (target : ExportAlias) :
    Persists more Eq (scope.findExport target) ((scope.moved path).findExport target) := by
  apply (scope.persists_instanceAt path target.instanceIndex).bind_eq
  intro exports
  cases target.kind.isDefinition with
  | false => exact scope.persists_reject path Eq _
  | true =>
      simp only [if_pos]
      cases exports.lookup target.name with
      | none => exact scope.persists_reject path Eq _
      | some item =>
          by_cases kinds : KindCode.ofKind item.kind = target.kind
          · simp only [if_pos kinds]
            exact .ok rfl
          · simp only [if_neg kinds]
            exact scope.persists_reject path Eq _

theorem persists_requireAccumulating :
    Persists more Eq scope.requireAccumulating (scope.moved path).requireAccumulating := by
  have same : (scope.moved path).state = scope.state := rfl
  unfold requireAccumulating
  rw [same]
  cases scope.state with
  | accumulating => exact .ok rfl
  | _ => exact .error (.notAccepting _ _ _)

theorem persists_declare (kind : ItemKind) (item : ItemType) :
    Persists more (fun found other => other = (found.1, found.2.moved path))
      (scope.declare kind item) ((scope.moved path).declare kind item) := by
  apply (scope.persists_requireAccumulating path).bind_eq
  intro _
  by_cases fits : kind = .type ∨ item.kind = kind
  · simp only [if_pos fits]
    exact .ok rfl
  · simp only [if_neg fits]
    exact .error (.refl _)

theorem persists_declareImport (name : Name) (item : ItemType) :
    Persists more (fun found other => other = (found.1, found.2.moved path))
      (scope.declareImport name item) ((scope.moved path).declareImport name item) := by
  apply (scope.persists_requireAccumulating path).bind_eq
  intro _
  have same : (scope.moved path).imports = scope.imports := rfl
  rw [same]
  cases Entries.has scope.imports name with
  | true => exact scope.persists_reject path _ _
  | false =>
      apply persists_declare { scope with imports := scope.imports ++ [(name, item)] } path

theorem persists_declareExport (name : Name) (item : ItemType) :
    Persists more (fun next other => other = next.moved path)
      (scope.declareExport name item) ((scope.moved path).declareExport name item) := by
  apply (scope.persists_requireAccumulating path).bind_eq
  intro _
  have same : (scope.moved path).exports = scope.exports := rfl
  rw [same]
  cases Entries.has scope.exports name with
  | true => exact scope.persists_reject path _ _
  | false => exact .ok rfl

theorem persists_recordIn (item : ItemType) (space : Option ItemKind) :
    Persists more (fun next other => other = next.moved path)
      (scope.recordIn item space) ((scope.moved path).recordIn item space) := by
  cases space with
  | none =>
      apply (scope.persists_requireAccumulating path).bind_eq
      intro _
      exact .ok rfl
  | some kind =>
      apply (scope.persists_declare path kind item).bind
      intro found other same
      exact .ok (same ▸ rfl)

theorem persists_record (definition : Definition) (item : ItemType) :
    Persists more (fun next other => other = next.moved path)
      (scope.record definition item) ((scope.moved path).record definition item) := by
  cases definition with
  | importItem name type =>
      apply (scope.persists_declareImport path name item).bind
      intro found other same
      exact .ok (same ▸ rfl)
  | exportItem name reference => exact scope.persists_declareExport path name item
  | typeItem type => exact scope.persists_recordIn path item (some .type)
  | outerAlias target => exact scope.persists_recordIn path item target.kind.outerKind?
  | absent => exact scope.persists_recordIn path item none
  | _ => exact scope.persists_recordIn path item (some item.kind)

end Scope

/-! ## Modules around -/

def View.Within (view wider : View) : Prop :=
  ∀ kind index item, view kind index = some item → wider kind index = some item

/-- A wider context: the modules around a check show what others show, and `more` are around
these. -/
structure Enclosing.Widen (more : Nat) (outer wider : List Enclosing) : Prop where
  length : wider.length = outer.length + more
  shows : ∀ (depth : Nat) (ancestor : Enclosing), outer[depth]? = some ancestor →
    ∃ later, wider[depth]? = some later ∧ ancestor.view.Within later.view

namespace Enclosing.Widen

variable {more : Nat} {outer wider : List Enclosing} {scope later : Scope}

theorem refl (outer : List Enclosing) : Enclosing.Widen 0 outer outer where
  length := rfl
  shows := fun _ ancestor found => ⟨ancestor, found, fun _ _ _ visible => visible⟩

theorem of_nil (outer : List Enclosing) : Enclosing.Widen outer.length [] outer where
  length := (Nat.zero_add _).symm
  shows := fun _ _ found => absurd found (by simp)

theorem cons (widen : Enclosing.Widen more outer wider) (within : scope.view.Within later.view) :
    Enclosing.Widen more (scope.seen :: outer) (later.seen :: wider) where
  length := by
    rw [List.length_cons, List.length_cons, widen.length]
    omega
  shows := by
    intro depth ancestor found
    cases depth with
    | zero =>
        cases found
        refine ⟨later.seen, rfl, ?_⟩
        rw [Scope.view_seen, Scope.view_seen]
        exact within
    | succ depth => exact widen.shows depth ancestor found

end Enclosing.Widen

theorem Scope.persists_findOuter {more : Nat} {outer wider : List Enclosing} (scope : Scope)
    (path : Path) (widen : Enclosing.Widen more outer wider) (target : OuterAlias) :
    Persists more (fun found other => other.2.2 = found.2.2) (scope.findOuter outer target)
      ((scope.moved path).findOuter wider target) := by
  unfold findOuter
  cases target.kind.outerKind? with
  | none => exact scope.persists_reject path _ _
  | some kind =>
      cases around : outer[target.depth]? with
      | none =>
          -- With as many modules around, the depth is too large as before.
          have length := widen.length
          rcases Nat.eq_zero_or_pos more with none | some
          · have beyond : wider[target.depth]? = .none := by
              rw [List.getElem?_eq_none_iff] at around ⊢
              omega
            have same : wider.length = outer.length := by omega
            simp only [beyond, same]
            exact scope.persists_reject path _ _
          · exact .mended (.inl some) _
      | some ancestor =>
          obtain ⟨later, present, within⟩ := widen.shows _ _ around
          simp only [present]
          cases visible : ancestor.scope.lookup kind target.index (ancestor.visible kind) with
          | none => exact .mended (.inr ⟨_, rfl, rfl⟩) _
          | some item =>
              have again : later.scope.lookup kind target.index (later.visible kind) = some item :=
                within kind target.index item visible
              simp only [again]
              exact .ok rfl

/-! ## Whole modules -/

mutual

def Definition.height : Definition → Nat
  | .nested _ definitions => Definition.heights definitions + 1
  | _ => 0

def Definition.heights : List Definition → Nat
  | [] => 0
  | definition :: rest => max definition.height (Definition.heights rest)

end

def ModuleDef.height (module : ModuleDef) : Nat := Definition.heights module.definitions

theorem Definition.height_le_heights {definition : Definition} {definitions : List Definition}
    (inside : definition ∈ definitions) : definition.height ≤ Definition.heights definitions := by
  induction definitions with
  | nil => exact absurd inside List.not_mem_nil
  | cons first rest ih =>
      rw [Definition.heights]
      rcases List.mem_cons.mp inside with same | later
      · exact same ▸ Nat.le_max_left _ _
      · exact Nat.le_trans (ih later) (Nat.le_max_right _ _)

namespace Validation

variable {options : Options} {more : Nat} {outer wider : List Enclosing}

/-- There is room for nested modules of a height in a wider context: it has no more modules around,
or these leave enough of the nesting allowed. -/
def Room (options : Options) (more : Nat) (wider : List Enclosing) (height : Nat) : Prop :=
  more = 0 ∨ wider.length + height ≤ options.nesting

theorem Room.mono {height lower : Nat} (room : Room options more wider height)
    (le : lower ≤ height) : Room options more wider lower := by
  rcases room with none | enough
  · exact .inl none
  · exact .inr (by omega)

theorem Room.inside {height : Nat} (room : Room options more wider (height + 1))
    (around : Enclosing) : Room options more (around :: wider) height := by
  rcases room with none | enough
  · exact .inl none
  · exact .inr (by rw [List.length_cons]; omega)

theorem persists_checkNesting (widen : Enclosing.Widen more outer wider) {height : Nat}
    (room : Room options more wider height) (scope : Scope) (path : Path) :
    Persists more Eq (checkNesting options outer scope)
      (checkNesting options wider (scope.moved path)) := by
  have length := widen.length
  unfold checkNesting
  by_cases shallow : outer.length ≤ options.nesting
  · have enough : wider.length ≤ options.nesting := by
      rcases room with none | enough <;> omega
    simp only [if_pos shallow, if_pos enough]
    exact .ok rfl
  · rcases Nat.eq_zero_or_pos more with none | some
    · have same : wider.length = outer.length := by omega
      simp only [same, if_neg shallow]
      exact scope.persists_reject path Eq _
    · rw [if_neg shallow]
      exact .mended (.inl some) _

def Portable (options : Options) (definition : Definition) : Prop :=
  ∀ {more : Nat} {outer wider : List Enclosing} (scope : Scope) (path : Path),
    Enclosing.Widen more outer wider → Room options more wider definition.height →
    Persists more (fun next other => other = next.moved path)
      (define options outer scope definition).result
      (define options wider (scope.moved path) definition).result

theorem persists_defineAll {definitions : List Definition}
    (each : ∀ definition ∈ definitions, Portable options definition) (scope : Scope) (path : Path)
    (widen : Enclosing.Widen more outer wider)
    (room : Room options more wider (Definition.heights definitions)) :
    Persists more (fun next other => other = next.moved path)
      (defineAll options outer scope definitions).result
      (defineAll options wider (scope.moved path) definitions).result := by
  induction definitions generalizing scope with
  | nil => exact .ok rfl
  | cons definition rest ih =>
      rw [result_defineAll_cons, result_defineAll_cons]
      have first := each definition List.mem_cons_self scope path widen
        (room.mono (Definition.height_le_heights List.mem_cons_self))
      apply first.bind
      intro next other same
      subst same
      have others : ∀ later ∈ rest, Portable options later := fun later inside =>
        each later (List.mem_cons_of_mem _ inside)
      exact ih others next (room.mono (by rw [Definition.heights]; exact Nat.le_max_right _ _))

/-- If the definitions of a module are checked in the same way, so is the module, at any place. -/
theorem persists_inScope_of_body {body later : Scope → Traced Fault Scope} (place path : Path)
    (widen : Enclosing.Widen more outer wider) {height : Nat}
    (room : Room options more wider height)
    (filled : Persists more (fun next other => other = next.moved path)
      (body (.opened place)).result (later (.opened path)).result) :
    Persists more Eq (inScope options outer place body).result
      (inScope options wider path later).result := by
  rw [result_inScope, result_inScope]
  change Persists more Eq (checkNesting options outer (.opened place) >>= _)
    (checkNesting options wider (.opened path) >>= _)
  apply (persists_checkNesting widen room (.opened place) path).bind_eq
  intro _
  apply filled.bind
  intro filled other same
  subst same
  have frozen : Persists more (fun found other => other.1 = found.1) filled.freeze
      (filled.moved path).freeze := by
    apply (filled.persists_requireAccumulating path).bind_eq
    intro _
    exact .ok rfl
  apply frozen.bind
  intro found other same
  exact .ok same.symm

/-- If the definitions of a module are portable, so is the module, to any place. -/
theorem persists_inScope {definitions : List Definition}
    (each : ∀ definition ∈ definitions, Portable options definition) (place path : Path)
    (widen : Enclosing.Widen more outer wider)
    (room : Room options more wider (Definition.heights definitions)) :
    Persists more Eq
      (inScope options outer place fun scope =>
        defineAll options outer scope definitions).result
      (inScope options wider path fun scope =>
        defineAll options wider scope definitions).result :=
  persists_inScope_of_body place path widen room
    (persists_defineAll each (.opened place) path widen room)

theorem persists_define {definition : Definition} (scope : Scope) (path : Path)
    (found : Persists more Eq (itemOf options outer scope definition)
      (itemOf options wider (scope.moved path) definition)) :
    Persists more (fun next other => other = next.moved path)
      (define options outer scope definition).result
      (define options wider (scope.moved path) definition).result := by
  rw [result_define_eq, result_define_eq]
  apply found.bind_eq
  intro item
  exact scope.persists_record path definition item

theorem persists_itemOf {definition : Definition}
    (plain : ∀ name definitions, definition ≠ .nested name definitions) (scope : Scope)
    (path : Path) (widen : Enclosing.Widen more outer wider) :
    Persists more Eq (itemOf options outer scope definition)
      (itemOf options wider (scope.moved path) definition) := by
  cases definition with
  | typeItem type => exact scope.persists_resolveType path type
  | importItem name type => exact scope.persists_resolveType path type
  | nested name definitions => exact absurd rfl (plain name definitions)
  | absent => exact .error (.missingModule _ _)
  | instantiate moduleIndex arguments =>
      apply (Persists.of_uniform (Instantiation.uniform_checkNames arguments) _ _).bind_eq
      intro _
      apply (scope.persists_moduleAt path moduleIndex).bind_eq
      intro type
      apply (scope.persists_resolveItems path .argument arguments).bind_eq
      intro items
      apply (Persists.of_uniform (Instantiation.uniform_instantiate type items) _ _).bind_eq
      intro exports
      exact .ok rfl
  | tuple exports =>
      apply (Persists.of_uniform (Instantiation.uniform_checkNames exports) _ _).bind_eq
      intro _
      apply (scope.persists_resolveItems path .tupleExport exports).bind_eq
      intro items
      apply (Persists.of_uniform (Instantiation.uniform_ofItems items) _ _).bind_eq
      intro type
      exact .ok rfl
  | exportAlias target => exact scope.persists_findExport path target
  | outerAlias target =>
      apply (scope.persists_findOuter path widen target).bind
      intro found other same
      exact .ok same.symm
  | exportItem name reference => exact scope.persists_resolveItem path .moduleExport reference

theorem portable (options : Options) (definition : Definition) : Portable options definition := by
  induction definition using Definition.nestedInduction with
  | plain definition notNested =>
      intro more outer wider scope path widen _
      exact persists_define scope path (persists_itemOf notNested scope path widen)
  | nested name definitions ih =>
      intro more outer wider scope path widen room
      apply persists_define
      rw [Definition.height] at room
      -- The module around shows the same, wherever it stands.
      have within : scope.view.Within (scope.moved path).view := fun _ _ _ visible => visible
      have accepted := persists_inScope ih (scope.nestedPath name)
        ((scope.moved path).nestedPath name) (widen.cons within) (room.inside _)
      rw [itemOf, itemOf]
      apply accepted.bind_eq
      intro type
      exact .ok rfl

end Validation

/-! ## Further declarations -/

inductive Scope.Declares (scope next : Scope) : Prop where
  | item {kind : ItemKind} {item : ItemType} {index : Nat}
      (success : scope.declare kind item = .ok (index, next))
  | imported {name : Name} {item : ItemType} {index : Nat}
      (success : scope.declareImport name item = .ok (index, next))
  | exported {name : Name} {item : ItemType} (success : scope.declareExport name item = .ok next)

theorem Scope.Grows.of_declares {scope later : Scope}
    (declared : Relation.ReflTransGen Scope.Declares scope later) : scope.Grows later := by
  induction declared with
  | refl => exact .refl scope
  | tail _ last ih =>
      cases last with
      | item success => exact ih.trans (.of_change (.of_declare success))
      | imported success => exact ih.trans (.of_change (.of_declareImport success))
      | exported success => exact ih.trans (.of_change (.of_declareExport success))

def Scope.withModules (scope : Scope) (types : List ModuleType) : Scope :=
  { scope with spaces := { scope.spaces with
      modules := scope.spaces.modules ++ types.map ItemType.ofModule } }

theorem Scope.withModules_withModules (scope : Scope) (first second : List ModuleType) :
    (scope.withModules first).withModules second = scope.withModules (first ++ second) := by
  simp [Scope.withModules]

theorem Scope.Grows.withModules (scope : Scope) (types : List ModuleType) :
    scope.Grows (scope.withModules types) where
  path := rfl
  spaces := by
    intro kind
    cases kind with
    | module => exact List.prefix_append _ _
    | _ => exact List.prefix_rfl

theorem Verdict.forall₂_of_ofSiblings {validate : ModuleDef → Traced Fault ModuleType}
    {modules : List ModuleDef} {types : List ModuleType}
    (accepted : Verdict.ofSiblings validate modules = .ok (types.map .ok)) :
    List.Forall₂ (fun module type => (validate module).result = .ok type) modules types := by
  induction modules generalizing types with
  | nil =>
      rw [Verdict.ofSiblings, Except.ok.injEq] at accepted
      rw [List.map_eq_nil_iff.mp accepted.symm]
      exact .nil
  | cons module rest ih =>
      simp only [Verdict.ofSiblings, bind_eq_ok_iff] at accepted
      obtain ⟨verdict, first, verdicts, later, same⟩ := accepted
      cases types with
      | nil => cases same
      | cons type others =>
          cases same
          refine .cons ?_ (ih later)
          cases result : (validate module).result with
          | ok found =>
              rw [result] at first
              cases first
              rfl
          | error fault =>
              rw [result] at first
              cases fault <;> cases first

namespace ModuleDef

variable {options : Validation.Options} {outer : List Enclosing} {scope later : Scope}

theorem persists_validateIn (grows : scope.Grows later) (module : ModuleDef) :
    Persists 0 Eq (module.validateIn options outer scope).result
      (module.validateIn options outer later).result := by
  have within : scope.view.Within later.view := fun _ _ _ visible => grows.view_eq_some visible
  exact Validation.persists_inScope (fun definition _ => Validation.portable options definition) _ _
    ((Enclosing.Widen.refl outer).cons within) (.inl rfl)

theorem persists_validate (module : ModuleDef) (scope : Scope)
    (room : outer.length + 1 + module.height ≤ options.nesting) :
    Persists (outer.length + 1) Eq (module.validate options).result
      (module.validateIn options outer scope).result :=
  Validation.persists_inScope (fun definition _ => Validation.portable options definition) _ _
    (Enclosing.Widen.of_nil (scope.seen :: outer)) (.inr room)

/-- A nested module is declared with the type that it has when it is checked on its own. -/
theorem result_define_asNested {module : ModuleDef} {type : ModuleType}
    (accumulating : scope.state = .accumulating)
    (accepted : (module.validateIn options outer scope).result = .ok type) :
    (Validation.define options outer scope module.asNested).result =
      .ok (scope.withModules [type]) := by
  have item : Validation.itemOf options outer scope module.asNested = .ok (.ofModule type) := by
    change (module.validateIn options outer scope).result >>= _ = _
    rw [accepted]
    rfl
  rw [Validation.result_define_eq, item]
  exact Scope.recordIn_own accumulating (.ofModule type)

/-- Modules that are accepted side by side are accepted one after the other, in the scope or in one
that has grown from it. -/
theorem result_defineAll_asNested {modules : List ModuleDef} {types : List ModuleType}
    (accepted : List.Forall₂
      (fun module type => (module.validateIn options outer scope).result = .ok type) modules types)
    (grows : scope.Grows later) (accumulating : later.state = .accumulating) :
    (Validation.defineAll options outer later (modules.map asNested)).result =
      .ok (later.withModules types) := by
  induction accepted generalizing later with
  | nil => simp [Validation.defineAll, Scope.withModules]
  | @cons module type rest others first _ ih =>
      have persists : Persists 0 Eq (module.validateIn options outer scope).result
          (module.validateIn options outer later).result := persists_validateIn grows module
      rw [first] at persists
      rw [List.map_cons, Validation.result_defineAll_cons,
        result_define_asNested accumulating persists.eq_ok]
      have declared := ih (grows.trans (.withModules later [type])) accumulating
      rw [Scope.withModules_withModules] at declared
      exact declared

/-- **A check survives a wider context.** A module that is accepted on its own is accepted with the
same type in every scope that leaves room for the modules in it. A module that is accepted in a
scope is accepted with the same type after further declarations there, and one that is refused is
refused for the same cause, unless an index was unbound. So modules that are accepted in a scope
side by side are accepted there one after the other, and declared with the same types in this
order. -/
theorem validateIn_of_wider_context (options : Validation.Options) (outer : List Enclosing)
    (scope : Scope) :
    (∀ (module : ModuleDef) (type : ModuleType), (module.validate options).result = .ok type →
      outer.length + 1 + module.height ≤ options.nesting →
      (module.validateIn options outer scope).result = .ok type) ∧
    (∀ later : Scope, Relation.ReflTransGen Scope.Declares scope later → ∀ module : ModuleDef,
      (∀ type, (module.validateIn options outer scope).result = .ok type →
        (module.validateIn options outer later).result = .ok type) ∧
      ∀ error, (module.validateIn options outer scope).result = .error (.invalid error) →
        error.cause.kind? ≠ some .unboundIndex →
        ∃ place, (module.validateIn options outer later).result =
          .error (.invalid ⟨place, error.cause⟩)) ∧
    ∀ (modules : List ModuleDef) (types : List ModuleType), scope.state = .accumulating →
      Verdict.ofSiblings (ModuleDef.validateIn options outer scope) modules =
        .ok (types.map .ok) →
      (Validation.defineAll options outer scope (modules.map asNested)).result =
        .ok (scope.withModules types) := by
  refine ⟨?_, ?_, ?_⟩
  · intro module type accepted room
    have persists := module.persists_validate scope room
    rw [accepted] at persists
    exact persists.eq_ok
  · intro later declared module
    have persists : Persists 0 Eq (module.validateIn options outer scope).result
        (module.validateIn options outer later).result :=
      persists_validateIn (.of_declares declared) module
    refine ⟨?_, ?_⟩
    · intro type accepted
      rw [accepted] at persists
      exact persists.eq_ok
    · intro error refused bound
      rw [refused] at persists
      exact persists.eq_invalid bound
  · intro modules types accumulating accepted
    exact result_defineAll_asNested (Verdict.forall₂_of_ofSiblings accepted) (.refl scope)
      accumulating

def hostel : Scope :=
  { Scope.opened (.root [1]) with spaces := { types := [.func [] []] } }

def nomad : ModuleDef where
  definitions := [.importItem [2] (.complete (.func [] []))]

/-- A module that takes a type of the scope around it, and one more inside that takes it again. -/
def lodger : ModuleDef where
  definitions :=
    [.outerAlias ⟨0, 0, .ofKind .type⟩,
      .nested [] [.outerAlias ⟨1, 0, .ofKind .type⟩, .importItem [3] (.indexed (.ofKind .func) 0)],
      .exportItem [4] ⟨.ofKind .module, 0⟩]

def glutton : ModuleDef where
  definitions := [.importItem [5] (.complete (.memory ⟨70000, none⟩))]

theorem validateIn_of_wider_context_hostel :
    (nomad.validateIn {} [] hostel).result = .ok ⟨[([2], .func [] [])], []⟩ ∧
    (∃ index later, hostel.declare .type (.inst []) = .ok (index, later) ∧
      (lodger.validateIn {} [] later).result =
        .ok ⟨[], [([4], .module [([3], .func [] [])] [])]⟩ ∧
      ∃ place, (glutton.validateIn {} [] later).result =
        .error (.invalid ⟨place, .defect (.memory ⟨70000, none⟩)⟩)) ∧
    (Validation.defineAll {} [] hostel ([nomad, lodger].map asNested)).result =
      .ok (hostel.withModules
        [⟨[([2], .func [] [])], []⟩, ⟨[], [([4], .module [([3], .func [] [])] [])]⟩]) := by
  obtain ⟨alone, further, siblings⟩ := validateIn_of_wider_context {} [] hostel
  have declares : hostel.declare .type (.inst []) =
      .ok (1, { hostel with spaces := hostel.spaces.push (.inst []) .type }) := rfl
  obtain ⟨accepted, refused⟩ := further _ (.single (.item declares)) lodger
  obtain ⟨_, refused⟩ := further _ (.single (.item declares)) glutton
  refine ⟨alone nomad _ (by decide +kernel) (by decide), ⟨_, _, declares, ?_, ?_⟩, ?_⟩
  · exact accepted _ (by decide +kernel)
  · exact refused ⟨_, .defect (.memory ⟨70000, none⟩)⟩ rfl (by decide)
  · exact siblings [nomad, lodger] _ rfl (by decide +kernel)

end ModuleDef

end Linkage

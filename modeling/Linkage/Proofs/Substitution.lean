import Linkage.Proofs.Narrowing
import Linkage.Proofs.Step

/-!
# Better imports

If some imports of an accepted module are stated with better types, the module is still accepted:
its other imports are the same, and its exports have the same names with types below the former
ones. The check of the narrowed module runs side by side with that of the module, in a scope that
refines its scope; nested modules are checked in enclosing scopes that refine the former ones, with
no import of their own narrowed.
-/

set_option autoImplicit false

namespace Linkage

/-- A scope refines another one up to a narrowing of the imports: it holds the same declared types,
items below those of the other one, and the same names for them. -/
structure Scope.Refines (narrowing : Narrowing) (lower upper : Scope) : Prop where
  state : lower.state = upper.state
  types : lower.spaces.get .type = upper.spaces.get .type
  items : ∀ kind, List.Forall₂ ItemType.Below (lower.spaces.get kind) (upper.spaces.get kind)
  imports : lower.imports = upper.imports.map narrowing.entry
  exports : Entries.Aligned ItemType.Below lower.exports upper.exports

def Enclosing.RefineEach (lower upper : List Enclosing) : Prop :=
  List.Forall₂ View.Refines (lower.map Enclosing.view) (upper.map Enclosing.view)

theorem Enclosing.RefineEach.length_eq {lower upper : List Enclosing}
    (refine : Enclosing.RefineEach lower upper) : lower.length = upper.length := by
  have lengths := List.Forall₂.length_eq refine
  rw [List.length_map, List.length_map] at lengths
  exact lengths

namespace Scope.Refines

variable {narrowing : Narrowing} {lower upper : Scope} {definition : Definition}
  {better item : ItemType}

theorem opened (narrowing : Narrowing) (lowerPath upperPath : Path) :
    Scope.Refines narrowing (.opened lowerPath) (.opened upperPath) where
  state := rfl
  types := rfl
  items := by
    intro kind
    cases kind <;> exact .nil
  imports := rfl
  exports := .nil

theorem view (refines : Scope.Refines narrowing lower upper) :
    View.Refines lower.view upper.view where
  types := by
    funext index
    rw [Scope.view, Scope.view, refines.types]
  items := by
    intro kind index item found
    exact exists_getElem?_of_forall₂ (refines.items kind) found

theorem seen (refines : Scope.Refines narrowing lower upper) {around outer : List Enclosing}
    (enclosing : Enclosing.RefineEach around outer) :
    Enclosing.RefineEach (lower.seen :: around) (upper.seen :: outer) := by
  rw [Enclosing.RefineEach, List.map_cons, List.map_cons, Scope.view_seen, Scope.view_seen]
  exact .cons refines.view enclosing

theorem takes (refines : Scope.Refines narrowing lower upper)
    (improves : definition.Improves narrowing better item) (takes : upper.Takes definition item) :
    lower.Takes (definition.narrowed narrowing) better where
  accumulating := by rw [refines.state, takes.accumulating]
  fits := by
    intro kind space
    rw [Definition.space_narrowed narrowing definition improves.below.kind_eq] at space
    rw [improves.below.kind_eq]
    exact takes.fits kind space
  newImport := by
    intro entry named
    rw [improves.imports] at named
    obtain ⟨imported, before, same⟩ := Option.map_eq_some_iff.mp named
    rw [refines.imports, Narrowing.entry_names, ← same]
    exact takes.newImport imported before
  newExport := by
    intro entry named
    have aligned := definition.exportEntry_narrowed narrowing improves.below
    rw [named] at aligned
    rw [refines.exports.names_eq]
    cases before : definition.exportEntry item with
    | none =>
        rw [before] at aligned
        cases aligned
    | some exported =>
        rw [before] at aligned
        cases aligned with
        | cons same _ =>
            rw [same.1]
            exact takes.newExport exported before

theorem extended (refines : Scope.Refines narrowing lower upper)
    (improves : definition.Improves narrowing better item) :
    Scope.Refines narrowing (lower.extended (definition.narrowed narrowing) better)
      (upper.extended definition item) where
  state := refines.state
  types := by
    rw [Scope.get_extended, Scope.get_extended, refines.types,
      Definition.space_narrowed narrowing definition improves.below.kind_eq]
    by_cases isType : definition.space item = some .type
    · rw [improves.types isType]
    · simp only [if_neg isType]
  items := by
    intro kind
    rw [Scope.get_extended, Scope.get_extended,
      Definition.space_narrowed narrowing definition improves.below.kind_eq]
    apply List.rel_append (refines.items kind)
    by_cases space : definition.space item = some kind
    · simpa only [if_pos space] using List.Forall₂.cons improves.below .nil
    · simp only [if_neg space, List.Forall₂.nil]
  imports := by
    simp only [Scope.extended, improves.imports, refines.imports, List.map_append]
    cases definition.importEntry item <;> rfl
  exports := refines.exports.append (definition.exportEntry_narrowed narrowing improves.below)

end Scope.Refines

/-! ## Narrowed runs -/

namespace Validation

variable {options : Options} {outer around : List Enclosing} {lower upper next filled : Scope}
  {definition : Definition} {narrowing : Narrowing}

theorem imports_subset_of_define
    (success : (define options outer upper definition).result = .ok next) :
    upper.imports ⊆ next.imports := by
  rw [result_define_eq, bind_eq_ok_iff] at success
  obtain ⟨item, _, recorded⟩ := success
  rw [(Scope.record_eq_ok_iff.mp recorded).2]
  exact List.subset_append_left _ _

theorem imports_subset_of_defineAll {definitions : List Definition}
    (success : (defineAll options outer upper definitions).result = .ok filled) :
    upper.imports ⊆ filled.imports := by
  induction definitions generalizing upper with
  | nil =>
      cases success
      exact List.Subset.refl _
  | cons definition rest ih =>
      rw [result_defineAll_cons, bind_eq_ok_iff] at success
      obtain ⟨next, first, later⟩ := success
      exact List.Subset.trans (imports_subset_of_define first) (ih later)

/-- A definition is narrowable if, wherever it is accepted, it is accepted in every better scope
with its import narrowed, and leaves a better scope there. -/
def Narrowable (options : Options) (definition : Definition) : Prop :=
  ∀ {narrowing : Narrowing} {outer around : List Enclosing} {lower upper next : Scope},
    Enclosing.RefineEach around outer → Scope.Refines narrowing lower upper →
    (define options outer upper definition).result = .ok next → narrowing.Fits next.imports →
    ∃ better, (define options around lower (definition.narrowed narrowing)).result = .ok better ∧
      Scope.Refines narrowing better next

/-- The step of a definition, with what a nested module comes to left to the caller. -/
theorem exists_define_narrowed {inner narrower : ModuleType}
    (enclosing : Enclosing.RefineEach around outer) (refines : Scope.Refines narrowing lower upper)
    (success : (define options outer upper definition).result = .ok next)
    (fits : narrowing.Fits next.imports)
    (nested : ∀ name definitions, definition = .nested name definitions →
      itemOf options outer upper definition = .ok (.ofModule inner) ∧
        itemOf options around lower definition = .ok (.ofModule narrower))
    (below : (ItemType.ofModule narrower).Below (.ofModule inner)) :
    ∃ better, (define options around lower (definition.narrowed narrowing)).result = .ok better ∧
      Scope.Refines narrowing better next := by
  -- The rule holds in the former scope, so in the better one too, and there gives a better item.
  obtain ⟨item, rule, takes, same⟩ :=
    (define_eq_ok_iff fun name definitions isNested => (nested name definitions isNested).1).mp
      success
  subst same
  have fitsItem : narrowing.Fits (definition.importEntry item).toList := by
    intro imported inside
    exact fits imported (List.mem_append_right _ inside)
  obtain ⟨better, betterRule, improves⟩ := rule.narrowed refines.view enclosing below fitsItem
  refine ⟨_, (define_eq_ok_iff ?_).mpr ⟨better, betterRule, refines.takes improves takes, rfl⟩,
    refines.extended improves⟩
  intro name definitions isNested
  cases definition with
  | nested => exact (nested _ _ rfl).2
  | _ => cases isNested

theorem exists_defineAll_narrowed {definitions : List Definition}
    (each : ∀ definition ∈ definitions, Narrowable options definition)
    (enclosing : Enclosing.RefineEach around outer) (refines : Scope.Refines narrowing lower upper)
    (success : (defineAll options outer upper definitions).result = .ok filled)
    (fits : narrowing.Fits filled.imports) :
    ∃ better, (defineAll options around lower
      (definitions.map (Definition.narrowed narrowing))).result = .ok better ∧
        Scope.Refines narrowing better filled := by
  induction definitions generalizing lower upper with
  | nil =>
      cases success
      exact ⟨lower, rfl, refines⟩
  | cons definition rest ih =>
      rw [result_defineAll_cons, bind_eq_ok_iff] at success
      obtain ⟨next, first, later⟩ := success
      have fitsNext : narrowing.Fits next.imports := by
        intro imported inside
        exact fits imported (imports_subset_of_defineAll later inside)
      obtain ⟨betterNext, betterFirst, refinesNext⟩ :=
        each definition List.mem_cons_self enclosing refines first fitsNext
      rw [List.map_cons, result_defineAll_cons, betterFirst]
      exact ih (fun other inside => each other (List.mem_cons_of_mem _ inside)) refinesNext later

/-- If each definition of a module is narrowable, the module is accepted with its imports narrowed,
and its exports are below the former ones. -/
theorem exists_inScope_narrowed {definitions : List Definition} {path : Path} {type : ModuleType}
    (each : ∀ definition ∈ definitions, Narrowable options definition)
    (enclosing : Enclosing.RefineEach around outer) (betterPath : Path)
    (success : (inScope options outer path fun scope =>
      defineAll options outer scope definitions).result = .ok type)
    (fits : narrowing.Fits type.imports) :
    ∃ exports, (inScope options around betterPath fun scope => defineAll options around scope
      (definitions.map (Definition.narrowed narrowing))).result =
        .ok ⟨type.imports.map narrowing.entry, exports⟩ ∧
      Entries.Aligned ItemType.Below exports type.exports := by
  obtain ⟨shallow, filled, run, accumulating, same⟩ := inScope_eq_ok_iff.mp success
  subst same
  obtain ⟨better, betterRun, refines⟩ :=
    exists_defineAll_narrowed each enclosing (.opened narrowing betterPath path) run fits
  refine ⟨better.exports, inScope_eq_ok_iff.mpr ⟨?_, better, betterRun, ?_, ?_⟩, refines.exports⟩
  · rw [enclosing.length_eq]
    exact shallow
  · rw [refines.state, accumulating]
  · rw [refines.imports]

theorem narrowable (options : Options) (definition : Definition) :
    Narrowable options definition := by
  induction definition using Definition.nestedInduction with
  | plain definition notNested =>
      intro narrowing outer around lower upper next enclosing refines success fits
      refine exists_define_narrowed enclosing refines success fits ?_ (.refl (.ofModule ⟨[], []⟩))
      intro name definitions isNested
      exact absurd isNested (notNested name definitions)
  | nested name definitions ih =>
      intro narrowing outer around lower upper next enclosing refines success fits
      have split := success
      rw [result_define_eq, bind_eq_ok_iff] at split
      obtain ⟨item, found, _⟩ := split
      have accepted := found
      rw [itemOf, bind_eq_ok_iff] at accepted
      obtain ⟨inner, accepted, same⟩ := accepted
      -- The nested module states its own imports, and only its enclosing scopes are better.
      obtain ⟨exports, betterAccepted, aligned⟩ := exists_inScope_narrowed ih
        (refines.seen enclosing) (lower.nestedPath name) accepted
        (Narrowing.none_fits inner.imports)
      have unchanged : definitions.map (Definition.narrowed .none) = definitions := by
        rw [funext Definition.narrowed_none, List.map_id']
      rw [unchanged, Narrowing.map_entry_none] at betterAccepted
      have below : (ItemType.ofModule ⟨inner.imports, exports⟩).Below (.ofModule inner) := by
        refine ItemType.below_module_iff.mpr ⟨aligned.covers, ?_⟩
        exact Entries.Covers.refl fun entry _ => .refl entry.2
      refine exists_define_narrowed enclosing refines success fits ?_ below
      intro _ _ _
      refine ⟨?_, ?_⟩
      · rw [found, ← same]
        rfl
      · rw [itemOf, betterAccepted]
        rfl

end Validation

namespace ModuleDef

def narrowed (narrowing : Narrowing) (module : ModuleDef) : ModuleDef :=
  { module with definitions := module.definitions.map (Definition.narrowed narrowing) }

/-- **Validation is monotone in the imports.** If types below the former ones are stated for some
imports of an accepted module, it is accepted with exactly these imports replaced, and its exports
have the same names and are below the former ones. No name is imported twice, so a narrowing can
state a type for any set of the imports. -/
theorem validate_narrowed {options : Validation.Options} {module : ModuleDef}
    {imports exports : InstanceType} {narrowing : Narrowing}
    (success : (module.validate options).result = .ok ⟨imports, exports⟩)
    (stated : ∀ imported ∈ imports, ∀ type, narrowing imported.1 = some type →
      type.isWellFormed = true ∧ type.isSubtype imported.2 = true) :
    ∃ better, ((module.narrowed narrowing).validate options).result =
        .ok ⟨imports.map narrowing.entry, better⟩ ∧
      better.map Prod.fst = exports.map Prod.fst ∧
      InstanceType.mismatch? better exports = none := by
  have fits : narrowing.Fits imports := by
    intro imported inside type found
    obtain ⟨wellFormed, below⟩ := stated imported inside type found
    rw [ItemType.isWellFormed, Option.isNone_iff_eq_none] at wellFormed
    exact ⟨ItemType.defect?_eq_none_iff.mp wellFormed, ItemType.isSubtype_iff.mp below⟩
  have each : ∀ definition ∈ module.definitions, Validation.Narrowable options definition :=
    fun definition _ => Validation.narrowable options definition
  have outermost : Enclosing.RefineEach [] [] := List.Forall₂.nil
  rw [validate] at success
  obtain ⟨better, accepted, aligned⟩ :=
    Validation.exists_inScope_narrowed each outermost module.path success fits
  exact ⟨better, accepted, aligned.names_eq,
    InstanceType.mismatch?_eq_none_iff.mpr aligned.covers⟩

/-- A module that hands an imported instance to a nested module, which instantiates an imported
module with it. -/
def relay : ModuleDef where
  definitions :=
    [.importItem [1] (.complete (.module [([2], .inst [([3], .func [] [])])] [([4], .inst [])])),
      .importItem [2] (.complete (.inst [([3], .func [] [])])),
      .nested [5]
        [.outerAlias ⟨0, 0, .ofKind .module⟩,
          .importItem [6] (.complete (.inst [([3], .func [] [])])),
          .instantiate 0 [([2], ⟨.ofKind .inst, 0⟩)],
          .exportAlias ⟨1, [4], .ofKind .inst⟩,
          .exportItem [7] ⟨.ofKind .inst, 2⟩],
      .instantiate 1 [([6], ⟨.ofKind .inst, 0⟩)],
      .exportItem [8] ⟨.ofKind .inst, 1⟩,
      .exportItem [9] ⟨.ofKind .inst, 0⟩]

theorem validate_narrowed_relay : ∃ better,
    ((relay.narrowed fun name => [([1], ItemType.module [] [([4], .inst [([3], .func [] [])])]),
      ([2], .inst [([3], .func [] []), ([4], .func [] [])])].lookup name).validate {}).result =
        .ok ⟨[([1], .module [] [([4], .inst [([3], .func [] [])])]),
          ([2], .inst [([3], .func [] []), ([4], .func [] [])])], better⟩ ∧
      better.map Prod.fst = [[8], [9]] ∧
      InstanceType.mismatch? better
        [([8], .inst [([7], .inst [])]), ([9], .inst [([3], .func [] [])])] = none := by
  have success : (relay.validate {}).result =
      .ok ⟨[([1], .module [([2], .inst [([3], .func [] [])])] [([4], .inst [])]),
        ([2], .inst [([3], .func [] [])])],
        [([8], .inst [([7], .inst [])]), ([9], .inst [([3], .func [] [])])]⟩ := by
    decide +kernel
  refine validate_narrowed success ?_
  intro imported inside type stated
  simp only [List.mem_cons, List.not_mem_nil, or_false] at inside
  rcases inside with same | same
  · cases same
    cases stated
    decide +kernel
  · cases same
    cases stated
    decide +kernel

end ModuleDef

end Linkage

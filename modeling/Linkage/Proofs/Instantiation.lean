import Linkage.Instantiation
import Linkage.Proofs.Order

/-!
# What an instantiation needs

An instantiation succeeds if and only if no argument name is repeated and the arguments cover the
imports; its result are the exports. So it goes on succeeding, with a better result, if the module
is replaced by one below it and the arguments by better ones. The context in which it is done only
gives its name to errors (`Uniform`).
-/

set_option autoImplicit false

namespace Linkage

theorem bind_eq_ok_iff {ε α β : Type} {first : Except ε α} {second : α → Except ε β}
    {result : β} :
    (first >>= second) = .ok result ↔ ∃ value, first = .ok value ∧ second value = .ok result := by
  cases first with
  | error fault => exact ⟨nofun, nofun⟩
  | ok value =>
      constructor
      · intro success
        exact ⟨value, rfl, success⟩
      · intro success
        obtain ⟨_, same, success⟩ := success
        cases same
        exact success

/-- A sequence fails in its first part or, after that, in its second. -/
theorem bind_eq_error_iff {ε α β : Type} {first : Except ε α} {second : α → Except ε β}
    {fault : ε} :
    (first >>= second) = .error fault ↔
      first = .error fault ∨ ∃ value, first = .ok value ∧ second value = .error fault := by
  cases first with
  | error other =>
      constructor
      · intro failed
        cases failed
        exact .inl rfl
      · rintro (same | ⟨_, success, _⟩)
        · cases same
          rfl
        · cases success
  | ok value =>
      constructor
      · intro failed
        exact .inr ⟨value, rfl, failed⟩
      · rintro (same | ⟨_, success, failed⟩)
        · cases same
        · cases success
          exact failed

namespace Instantiation

theorem checkNames_eq_ok_iff {α : Type} {context : Name} {arguments : List (Name × α)}
    {done : Unit} :
    checkNames context arguments = .ok done ↔ (arguments.map Prod.fst).Nodup := by
  rw [← Entries.repeated?_eq_none_iff, checkNames]
  cases Entries.repeated? arguments with
  | none => simp
  | some name => simp

theorem checkImport_eq_ok_iff {context name : Name} {arguments : Arguments}
    {wanted argument : ItemType} :
    checkImport context arguments name wanted = .ok argument ↔
      arguments.lookup name = some argument ∧ argument.Below wanted := by
  have decides := @ItemType.mismatch?_eq_none_iff
  unfold checkImport
  cases arguments.lookup name with
  | none => simp
  | some offer =>
      constructor
      · intro success
        cases mismatch : offer.mismatch? wanted with
        | none =>
            simp only [mismatch, Except.ok.injEq] at success
            exact ⟨congrArg some success, success ▸ decides.mp mismatch⟩
        | some reason => simp [mismatch] at success
      · rintro ⟨⟨⟩, below⟩
        simp only [decides.mpr below]

theorem checkImports_eq_ok_iff {context : Name} {arguments : Arguments}
    {imports : List (Name × ItemType)} {done : Unit} :
    (checkImports context arguments imports).result = .ok done ↔
      ∀ wanted ∈ imports, ∃ argument, arguments.lookup wanted.1 = some argument ∧
        argument.Below wanted.2 := by
  induction imports with
  | nil => simp [checkImports]
  | cons wanted rest ih =>
      simp only [checkImports, Traced.result_bind, Traced.result_ofExcept, Traced.result_emit,
        bind_eq_ok_iff, checkImport_eq_ok_iff, ih, List.forall_mem_cons]
      constructor
      · rintro ⟨argument, first, _, _, others⟩
        exact ⟨⟨argument, first⟩, others⟩
      · rintro ⟨⟨argument, first⟩, others⟩
        exact ⟨argument, first, (), trivial, others⟩

end Instantiation

theorem ModuleType.instantiate_eq_ok_iff {context : Name} {type : ModuleType}
    {arguments : Arguments} {result : InstanceType} :
    (type.instantiate context arguments).result = .ok result ↔
      (arguments.map Prod.fst).Nodup ∧ Entries.Covers ItemType.Below arguments type.imports ∧
        result = type.exports := by
  have covered : (∀ wanted ∈ Entries.sorted type.imports, ∃ argument,
      arguments.lookup wanted.1 = some argument ∧ argument.Below wanted.2) ↔
      Entries.Covers ItemType.Below arguments type.imports := by
    constructor
    · intro each name want found
      exact each (name, want) (Entries.mem_sorted_iff.mpr found)
    · intro covers wanted inside
      exact covers wanted.1 wanted.2 (Entries.mem_sorted_iff.mp inside)
  simp only [ModuleType.instantiate, Traced.result_bind, Traced.result_emit,
    Traced.result_ofExcept, Traced.result_pure, bind_eq_ok_iff,
    Instantiation.checkNames_eq_ok_iff, Instantiation.checkImports_eq_ok_iff, covered,
    Except.ok.injEq]
  constructor
  · rintro ⟨_, _, _, distinct, _, covers, _, _, _, _, same⟩
    exact ⟨distinct, covers, same.symm⟩
  · rintro ⟨distinct, covers, same⟩
    exact ⟨(), trivial, (), distinct, (), covers, (), trivial, (), trivial, same.symm⟩

theorem Entries.Covers.below_trans {lower middle upper : InstanceType}
    (below : Entries.Covers ItemType.Below lower middle)
    (above : Entries.Covers ItemType.Below middle upper) :
    Entries.Covers ItemType.Below lower upper :=
  below.trans above fun _ _ _ _ => ItemType.Below.trans

/-- A module below another can be instantiated wherever the other one can, also with better
arguments, and the instance is below the other one. -/
theorem ModuleType.instantiate_of_below {lower upper : ModuleType} {arguments better : Arguments}
    (context : Name) {result : InstanceType}
    (exports : Entries.Covers ItemType.Below lower.exports upper.exports)
    (imports : Entries.Covers ItemType.Below upper.imports lower.imports)
    (distinct : (better.map Prod.fst).Nodup)
    (improved : Entries.Covers ItemType.Below better arguments)
    {other : Name} (success : (upper.instantiate other arguments).result = .ok result) :
    (lower.instantiate context better).result = .ok lower.exports ∧
      Entries.Covers ItemType.Below lower.exports result := by
  obtain ⟨_, covers, rfl⟩ := ModuleType.instantiate_eq_ok_iff.mp success
  refine ⟨ModuleType.instantiate_eq_ok_iff.mpr ⟨distinct, ?_, rfl⟩, exports⟩
  exact improved.below_trans (covers.below_trans imports)

/-- Subtyping is sound for instantiation. If a module type is below another, every argument name
occurs among better arguments with a type below, and the other module can be instantiated with the
arguments, then the module can be instantiated with the better ones and gives an instance below. -/
theorem ModuleType.instantiate_monotone {lower upper : ModuleType} {arguments better : Arguments}
    {context other : Name} {result : InstanceType} (below : lower.mismatch? upper = none)
    (distinct : (better.map Prod.fst).Nodup)
    (improved : ∀ argument ∈ arguments, ∃ offer ∈ better,
      offer.1 = argument.1 ∧ offer.2.isSubtype argument.2 = true)
    (success : (upper.instantiate other arguments).result = .ok result) :
    ∃ betterResult, (lower.instantiate context better).result = .ok betterResult ∧
      InstanceType.mismatch? betterResult result = none := by
  obtain ⟨exports, imports⟩ := ModuleType.mismatch?_eq_none_iff.mp below
  have covers : Entries.Covers ItemType.Below better arguments := by
    intro name want found
    obtain ⟨offer, among, named, offerBelow⟩ := improved _ (Entries.mem_of_lookup found)
    have offered := Entries.lookup_of_mem_nodup distinct among
    rw [named] at offered
    exact ⟨offer.2, offered, ItemType.isSubtype_iff.mp offerBelow⟩
  obtain ⟨succeeds, resultBelow⟩ :=
    ModuleType.instantiate_of_below context exports imports distinct covers success
  exact ⟨lower.exports, succeeds, InstanceType.mismatch?_eq_none_iff.mpr resultBelow⟩

/-- A module that takes a module which in turn takes an instance, and exports another instance. -/
def adapter (taken given : InstanceType) : ModuleType :=
  ⟨[([1], .module [([2], .inst taken)] [])], [([3], .inst given)]⟩

theorem ModuleType.instantiate_monotone_adapter :
    ∃ result, ((adapter [([4], .func [] []), ([5], .func [] [])] [([4], .func [] [])]).instantiate
        hostContext [([6], .func [] []), ([1], .module [] [])]).result = .ok result ∧
      InstanceType.mismatch? result [([3], .inst [])] = none := by
  have below : (adapter [([4], .func [] []), ([5], .func [] [])] [([4], .func [] [])]).mismatch?
      (adapter [([4], .func [] [])] []) = none := by decide +kernel
  have success : ((adapter [([4], .func [] [])] []).instantiate hostContext
      [([1], .module [([2], .inst [([4], .func [] [])])] [])]).result =
        .ok [([3], .inst [])] := by decide +kernel
  exact ModuleType.instantiate_monotone below (by decide) (by decide +kernel) success

/-! ## The name of the context -/

namespace Instantiation

variable {α β : Type}

/-- A result is the same in every context, up to the name of the context in an error. -/
def Uniform (result : Name → Except Fault α) : Prop :=
  (∃ value, ∀ context, result context = .ok value) ∨
    ∃ cause, ∀ context, result context = .error (.invalid ⟨context, cause⟩)

theorem Uniform.bind {first : Name → Except Fault α} {next : Name → α → Except Fault β}
    (uniform : Uniform first) (later : ∀ value, Uniform fun context => next context value) :
    Uniform fun context => first context >>= next context := by
  rcases uniform with ⟨value, found⟩ | ⟨cause, failed⟩
  · simp only [found]
    exact later value
  · simp only [failed]
    exact .inr ⟨cause, fun _ => rfl⟩

theorem uniform_checkNames (arguments : List (Name × α)) :
    Uniform fun context => checkNames context arguments := by
  unfold checkNames
  cases Entries.repeated? arguments with
  | none => exact .inl ⟨(), fun _ => rfl⟩
  | some name => exact .inr ⟨_, fun _ => rfl⟩

theorem uniform_checkImport (arguments : Arguments) (name : Name) (wanted : ItemType) :
    Uniform fun context => checkImport context arguments name wanted := by
  unfold checkImport
  cases arguments.lookup name with
  | none => exact .inr ⟨_, fun _ => rfl⟩
  | some argument =>
      cases mismatch : argument.mismatch? wanted with
      | none =>
          simp only [mismatch]
          exact .inl ⟨argument, fun _ => rfl⟩
      | some found =>
          simp only [mismatch]
          exact .inr ⟨_, fun _ => rfl⟩

theorem uniform_checkImports (arguments : Arguments) (imports : List (Name × ItemType)) :
    Uniform fun context => (checkImports context arguments imports).result := by
  induction imports with
  | nil => exact .inl ⟨(), fun _ => rfl⟩
  | cons wanted rest ih =>
      simp only [checkImports, Traced.result_bind, Traced.result_ofExcept, Traced.result_emit]
      apply (uniform_checkImport arguments wanted.1 wanted.2).bind
      intro _
      exact ih

theorem uniform_instantiate (type : ModuleType) (arguments : Arguments) :
    Uniform fun context => (type.instantiate context arguments).result := by
  simp only [ModuleType.instantiate, Traced.result_bind, Traced.result_ofExcept, Traced.result_emit]
  apply (uniform_checkNames arguments).bind
  intro _
  apply (uniform_checkImports arguments _).bind
  intro _
  exact .inl ⟨type.exports, fun _ => rfl⟩

theorem uniform_ofItems (items : Arguments) :
    Uniform fun context => InstanceType.ofItems context items := by
  apply (uniform_checkNames items).bind
  intro _
  exact .inl ⟨items, fun _ => rfl⟩

end Instantiation

end Linkage

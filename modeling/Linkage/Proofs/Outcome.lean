import Linkage.Proofs.FirstMismatch
import Linkage.Proofs.Instantiation

/-!
# The outcome of an instantiation

An instantiation ends in one of four ways, and `Outcome` says in which, of the arguments and the
imports as a whole: a repeated argument name counts before anything else, then the smallest import
name that is not supplied counts, and otherwise the result is the instance of the exports. Only
arguments whose names are imported matter, and their order does not.
-/

set_option autoImplicit false

namespace Linkage

namespace Instantiation

def Supplied (arguments : Arguments) (name : Name) (wanted : ItemType) : Prop :=
  ∃ argument, (name, argument) ∈ arguments ∧ argument.isSubtype wanted = true

def SuppliedBefore (arguments : Arguments) (imports : InstanceType) (name : Name) : Prop :=
  ∀ smaller wanted, imports.lookup smaller = some wanted → smaller < name →
    Supplied arguments smaller wanted

inductive Outcome (context : Name) (type : ModuleType) (arguments : Arguments) :
    Except Fault InstanceType → Prop where
  /-- The name of an argument, the first such one, has occurred earlier. -/
  | repeated {before after : Arguments} {argument : Name × ItemType}
      (split : arguments = before ++ argument :: after)
      (distinct : (before.map Prod.fst).Nodup) (again : argument.1 ∈ before.map Prod.fst) :
      Outcome context type arguments
        (.error (.invalid ⟨context, .duplicateArgument argument.1⟩))
  | missing {name : Name} {wanted : ItemType} (distinct : (arguments.map Prod.fst).Nodup)
      (imported : type.imports.lookup name = some wanted)
      (before : SuppliedBefore arguments type.imports name)
      (absent : name ∉ arguments.map Prod.fst) :
      Outcome context type arguments (.error (.invalid ⟨context, .missingArgument name wanted⟩))
  | mismatched {name : Name} {wanted argument : ItemType} {mismatch : Mismatch}
      (distinct : (arguments.map Prod.fst).Nodup)
      (imported : type.imports.lookup name = some wanted)
      (before : SuppliedBefore arguments type.imports name)
      (given : (name, argument) ∈ arguments) (found : argument.mismatch? wanted = some mismatch) :
      Outcome context type arguments
        (.error (.invalid ⟨context, .argumentMismatch name mismatch⟩))
  | exported (distinct : (arguments.map Prod.fst).Nodup)
      (supplied : ∀ name wanted, type.imports.lookup name = some wanted →
        Supplied arguments name wanted) :
      Outcome context type arguments (.ok type.exports)

variable {context : Name} {type : ModuleType} {arguments : Arguments}

def failure? (context : Name) (arguments : Arguments) (imported : Name × ItemType) : Option Fault :=
  match checkImport context arguments imported.1 imported.2 with
  | .ok _ => none
  | .error fault => some fault

/-- The check of imports in order ends at the first one that is not supplied. -/
theorem result_checkImports (context : Name) (arguments : Arguments)
    (imports : List (Name × ItemType)) :
    (checkImports context arguments imports).result =
      (imports.findSome? (failure? context arguments)).elim (.ok ()) .error := by
  induction imports with
  | nil => rfl
  | cons imported rest ih =>
      simp only [checkImports, Traced.result_bind, Traced.result_ofExcept, Traced.result_emit,
        List.findSome?_cons, failure?]
      cases checkImport context arguments imported.1 imported.2 with
      | ok argument => exact ih
      | error fault => rfl

theorem result_instantiate_of_distinct (distinct : (arguments.map Prod.fst).Nodup) :
    (type.instantiate context arguments).result =
      ((Entries.sorted type.imports).findSome? (failure? context arguments)).elim
        (.ok type.exports) .error := by
  have named : checkNames context arguments = .ok () := checkNames_eq_ok_iff.mpr distinct
  simp only [ModuleType.instantiate, Traced.result_bind, Traced.result_ofExcept,
    Traced.result_emit, named, result_checkImports]
  cases (Entries.sorted type.imports).findSome? (failure? context arguments) <;> rfl

theorem result_instantiate_of_repeated {name : Name}
    (repeated : Entries.repeated? arguments = some name) :
    (type.instantiate context arguments).result =
      .error (.invalid ⟨context, .duplicateArgument name⟩) := by
  simp only [ModuleType.instantiate, Traced.result_bind, Traced.result_ofExcept,
    Traced.result_emit, checkNames, repeated]
  rfl

variable {imported : Name × ItemType}

theorem failure?_eq_none_iff (distinct : (arguments.map Prod.fst).Nodup) :
    failure? context arguments imported = none ↔ Supplied arguments imported.1 imported.2 := by
  have checked := @checkImport_eq_ok_iff context imported.1 arguments imported.2
  simp only [Entries.lookup_eq_some_iff_mem distinct, ← ItemType.isSubtype_iff] at checked
  unfold failure? Supplied
  cases outcome : checkImport context arguments imported.1 imported.2 with
  | ok argument =>
      simp only [true_iff]
      exact ⟨argument, checked.mp outcome⟩
  | error fault =>
      simp only [reduceCtorEq, false_iff]
      rintro ⟨argument, supplied⟩
      rw [checked.mpr supplied] at outcome
      cases outcome

theorem failure?_eq_some_iff (distinct : (arguments.map Prod.fst).Nodup) {fault : Fault} :
    failure? context arguments imported = some fault ↔
      (imported.1 ∉ arguments.map Prod.fst ∧
        fault = .invalid ⟨context, .missingArgument imported.1 imported.2⟩) ∨
      ∃ argument mismatch, (imported.1, argument) ∈ arguments ∧
        argument.mismatch? imported.2 = some mismatch ∧
        fault = .invalid ⟨context, .argumentMismatch imported.1 mismatch⟩ := by
  simp only [← Entries.lookup_eq_some_iff_mem distinct, ← Entries.lookup_eq_none_iff_names]
  unfold failure? checkImport
  cases arguments.lookup imported.1 with
  | none => simp [eq_comm]
  | some argument =>
      cases found : argument.mismatch? imported.2 with
      | none => simp [found]
      | some mismatch => simp [found, eq_comm]

theorem outcome_of_repeated {name : Name} (repeated : Entries.repeated? arguments = some name)
    {result : Except Fault InstanceType} :
    Outcome context type arguments result ↔
      result = .error (.invalid ⟨context, .duplicateArgument name⟩) := by
  have notDistinct : ¬ (arguments.map Prod.fst).Nodup := by
    rw [← Entries.repeated?_eq_none_iff, repeated]
    exact Option.some_ne_none name
  constructor
  · intro outcome
    cases outcome with
    | @repeated before after argument split distinct again =>
        have first : Entries.repeated? arguments = some argument.1 :=
          Entries.repeated?_eq_some_iff.mpr ⟨before, argument, after, split, distinct, again, rfl⟩
        rw [Option.some.inj (repeated.symm.trans first)]
    | missing distinct => exact absurd distinct notDistinct
    | mismatched distinct => exact absurd distinct notDistinct
    | exported distinct => exact absurd distinct notDistinct
  · rintro rfl
    obtain ⟨before, argument, after, split, distinct, again, rfl⟩ :=
      Entries.repeated?_eq_some_iff.mp repeated
    exact .repeated split distinct again

theorem outcome_ok_iff (distinct : (arguments.map Prod.fst).Nodup) {instanceType : InstanceType} :
    Outcome context type arguments (.ok instanceType) ↔
      instanceType = type.exports ∧ ∀ name wanted, type.imports.lookup name = some wanted →
        Supplied arguments name wanted := by
  constructor
  · intro outcome
    cases outcome with
    | exported _ supplied => exact ⟨rfl, supplied⟩
  · rintro ⟨rfl, supplied⟩
    exact .exported distinct supplied

theorem outcome_error_iff (distinct : (arguments.map Prod.fst).Nodup) {fault : Fault} :
    Outcome context type arguments (.error fault) ↔
      ∃ imported : Name × ItemType, type.imports.lookup imported.1 = some imported.2 ∧
        failure? context arguments imported = some fault ∧
        SuppliedBefore arguments type.imports imported.1 := by
  constructor
  · intro outcome
    cases outcome with
    | repeated split _ again => exact absurd again (Entries.notMem_of_nodup (split ▸ distinct))
    | @missing name wanted _ imported before absent =>
        refine ⟨(name, wanted), imported, ?_, before⟩
        exact (failure?_eq_some_iff distinct).mpr (.inl ⟨absent, rfl⟩)
    | @mismatched name wanted argument mismatch _ imported before given found =>
        refine ⟨(name, wanted), imported, ?_, before⟩
        exact (failure?_eq_some_iff distinct).mpr (.inr ⟨argument, mismatch, given, found, rfl⟩)
  · rintro ⟨imported, counts, fails, before⟩
    rcases (failure?_eq_some_iff distinct).mp fails with
      ⟨absent, rfl⟩ | ⟨argument, mismatch, given, found, rfl⟩
    · exact .missing distinct counts before absent
    · exact .mismatched distinct counts before given found

/-- With distinct names the outcome is that of the first import, in byte order of the names, that is
not supplied. -/
theorem outcome_of_distinct (distinct : (arguments.map Prod.fst).Nodup)
    {result : Except Fault InstanceType} :
    Outcome context type arguments result ↔
      result = ((Entries.sorted type.imports).findSome? (failure? context arguments)).elim
        (.ok type.exports) .error := by
  have outcome_error (fault : Fault) : Outcome context type arguments (.error fault) ↔
      (Entries.sorted type.imports).findSome? (failure? context arguments) = some fault := by
    simp only [outcome_error_iff distinct, Entries.findSome?_sorted_eq_some_iff,
      failure?_eq_none_iff distinct, SuppliedBefore, Prod.forall]
  have outcome_ok (instanceType : InstanceType) :
      Outcome context type arguments (.ok instanceType) ↔ instanceType = type.exports ∧
        (Entries.sorted type.imports).findSome? (failure? context arguments) = none := by
    simp only [outcome_ok_iff distinct, List.findSome?_eq_none_iff, Entries.mem_sorted_iff,
      failure?_eq_none_iff distinct, Prod.forall]
  cases result with
  | ok instanceType =>
      rw [outcome_ok]
      cases (Entries.sorted type.imports).findSome? (failure? context arguments) <;> simp
  | error fault =>
      rw [outcome_error]
      cases (Entries.sorted type.imports).findSome? (failure? context arguments) <;> simp [eq_comm]

theorem result_instantiate_eq_iff {result : Except Fault InstanceType} :
    (type.instantiate context arguments).result = result ↔
      Outcome context type arguments result := by
  cases repeated : Entries.repeated? arguments with
  | none =>
      have distinct := (Entries.repeated?_eq_none_iff arguments).mp repeated
      rw [result_instantiate_of_distinct distinct, outcome_of_distinct distinct, eq_comm]
  | some name =>
      rw [result_instantiate_of_repeated repeated, outcome_of_repeated repeated, eq_comm]

/-! ## Arguments that do not matter -/

def relevant (type : ModuleType) (arguments : Arguments) : Arguments :=
  arguments.filter fun argument => Entries.has type.imports argument.1

theorem lookup_eq_of_relevant {others : Arguments} (distinct : (arguments.map Prod.fst).Nodup)
    (othersDistinct : (others.map Prod.fst).Nodup)
    (same : (relevant type arguments).Perm (relevant type others)) {name : Name}
    (imported : Entries.has type.imports name = true) :
    arguments.lookup name = others.lookup name := by
  have among {list : Arguments} {argument : ItemType} :
      (name, argument) ∈ list ↔ (name, argument) ∈ relevant type list := by
    rw [relevant, List.mem_filter]
    exact (and_iff_left imported).symm
  apply Option.ext
  intro argument
  rw [Entries.lookup_eq_some_iff_mem distinct, Entries.lookup_eq_some_iff_mem othersDistinct,
    among, same.mem_iff, ← among]

theorem failure?_congr {others : Arguments} {imported : Name × ItemType}
    (same : arguments.lookup imported.1 = others.lookup imported.1) :
    failure? context arguments imported = failure? context others imported := by
  rw [failure?, failure?, checkImport, checkImport, same]

/-- Neither the order of the arguments nor those that are not imported make a difference. -/
theorem result_instantiate_of_relevant {others : Arguments}
    (distinct : (arguments.map Prod.fst).Nodup) (othersDistinct : (others.map Prod.fst).Nodup)
    (same : (relevant type arguments).Perm (relevant type others)) :
    (type.instantiate context arguments).result = (type.instantiate context others).result := by
  have agree : ∀ imported ∈ Entries.sorted type.imports,
      failure? context arguments imported = failure? context others imported := by
    intro imported inside
    apply failure?_congr
    apply lookup_eq_of_relevant distinct othersDistinct same
    exact Entries.has_iff.mpr ⟨imported.2, Entries.mem_sorted_iff.mp inside⟩
  rw [result_instantiate_of_distinct distinct, result_instantiate_of_distinct othersDistinct,
    ← List.head?_filterMap, ← List.head?_filterMap, List.filterMap_congr agree]

end Instantiation

/-- **The outcome of an instantiation.** The result of an instantiation is the one that `Outcome`
states, and its errors are of the classes for repeated names, missing imports and subtyping. The
message about an argument that does not match contains the text that a checker, whatever it has done
before, gives for the argument and the import. If no name is repeated, arguments may be reordered,
and those that are not imported added and taken away: the result or error stays. -/
theorem ModuleType.instantiate_outcome (context : Name) (type : ModuleType)
    (arguments : Arguments) :
    (∀ result, (type.instantiate context arguments).result = result ↔
      Instantiation.Outcome context type arguments result) ∧
    (∀ (name : Name) (wanted : ItemType) (mismatch : Mismatch),
      (Cause.duplicateArgument name).kind? = some .duplicateArgName ∧
      (Cause.missingArgument name wanted).kind? = some .missingImport ∧
      (Cause.argumentMismatch name mismatch).kind? = some .subtypeError) ∧
    (∀ (name : Name) (argument wanted : ItemType) (mismatch : Mismatch),
      argument.mismatch? wanted = some mismatch →
      ∀ (shared : List Step → Bool) (checker : Checker),
        (Cause.argumentMismatch name mismatch).message =
          "Argument " ++ Text.quoted name ++ " does not match its import: " ++
            (Checker.ask shared (.items argument wanted) checker).1.2) ∧
    (∀ others : Arguments, (arguments.map Prod.fst).Nodup → (others.map Prod.fst).Nodup →
      (Instantiation.relevant type arguments).Perm (Instantiation.relevant type others) →
      (type.instantiate context others).result = (type.instantiate context arguments).result) := by
  refine ⟨fun result => Instantiation.result_instantiate_eq_iff, fun _ _ _ => ⟨rfl, rfl, rfl⟩,
    ?_, ?_⟩
  · intro name argument wanted mismatch found shared checker
    have told := Checker.ask_fst shared (.items argument wanted) checker
    rw [Comparison.found, Comparison.expected, found] at told
    rw [told]
    rfl
  · intro others distinct othersDistinct same
    exact Instantiation.result_instantiate_of_relevant othersDistinct distinct same.symm

def workbench : ModuleType :=
  ⟨[([2], .func [] []), ([1], .inst [([3], .func [] [])])], [([4], .memory ⟨1, none⟩)]⟩

theorem ModuleType.instantiate_outcome_workbench :
    let arguments : Arguments :=
      [([5], .func [] []), ([2], .memory ⟨1, none⟩), ([1], .inst [])]
    let error : Except Fault InstanceType :=
      .error (.invalid ⟨hostContext, .argumentMismatch [1] ⟨[], .missing .exports [3]⟩⟩)
    (workbench.instantiate hostContext arguments).result = error ∧
      (workbench.instantiate hostContext [([1], .inst []), ([2], .memory ⟨1, none⟩)]).result =
        error ∧
      (Cause.argumentMismatch [1] ⟨[], .missing .exports [3]⟩).message =
        "Argument " ++ Text.quoted [1] ++ " does not match its import: " ++
          (Checker.ask (fun _ => true)
            (.items (.inst []) (.inst [([3], .func [] [])])) {}).1.2 := by
  intro arguments error
  obtain ⟨_, _, message, unchanged⟩ :=
    ModuleType.instantiate_outcome hostContext workbench arguments
  have failed : (workbench.instantiate hostContext arguments).result = error := by decide +kernel
  refine ⟨failed, ?_, message [1] _ _ _ (by decide +kernel) _ _⟩
  rw [← failed]
  exact unchanged _ (by decide) (by decide) (by decide +kernel)

end Linkage

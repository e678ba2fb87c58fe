import Linkage.Proofs.Instantiation
import Linkage.Proofs.Rules
import Linkage.Scope.Alias
import Linkage.Scope.Resolution

/-!
# What a scope resolves

A scope shows all its entries, and to scopes inside it those that it had when they were made. For
each way in which a scope resolves a type, an item or an alias there is one statement here: it
succeeds if and only if the rules, in view of what the scope shows, say so.
-/

set_option autoImplicit false

namespace Linkage

def Scope.view (scope : Scope) : View := fun kind index => (scope.spaces.get kind)[index]?

def Enclosing.view (enclosing : Enclosing) : View := fun kind index =>
  enclosing.scope.lookup kind index (enclosing.visible kind)

namespace KindCode

theorem ofKind_injective {kind other : ItemKind} (same : ofKind kind = ofKind other) :
    kind = other := by
  cases kind <;> cases other <;> first | rfl | (exact absurd same (by decide))

theorem kind?_ofKind (kind : ItemKind) : (ofKind kind).kind? = some kind := by
  cases kind <;> rfl

theorem eq_ofKind_of_kind? {code : KindCode} {kind : ItemKind} (found : code.kind? = some kind) :
    code = ofKind kind := by
  obtain ⟨code⟩ := code
  have table : ∀ number : Fin 7, ItemKind.all[number.val]? = some kind →
      UInt32.ofNat number.val = kind.code := by
    cases kind <;> decide
  have small : code.toNat < 7 := (List.getElem?_eq_some_iff.mp found).1
  have same := table ⟨code.toNat, small⟩ found
  rw [UInt32.ofNat_toNat] at same
  rw [ofKind, same]

theorem outerKind?_eq_some_iff {code : KindCode} {kind : ItemKind} :
    code.outerKind? = some kind ↔ (kind = .module ∨ kind = .type) ∧ code = ofKind kind := by
  unfold outerKind?
  by_cases isModule : code = ofKind .module
  · subst isModule
    cases kind <;> decide
  · by_cases isType : code = ofKind .type
    · subst isType
      cases kind <;> decide
    · simp only [List.find?_cons, isModule, isType, decide_false, List.find?_nil, reduceCtorEq,
        false_iff, not_and]
      rintro (rfl | rfl)
      · exact isModule
      · exact isType

end KindCode

theorem ItemType.kind_ne_type (item : ItemType) : item.kind ≠ .type := by
  cases item with
  | core type => cases type <;> nofun
  | inst exports => nofun
  | module imports exports => nofun

namespace Scope

variable {scope : Scope}

theorem lookup_length (scope : Scope) (kind : ItemKind) (index : Nat) :
    scope.lookup kind index (scope.length kind) = scope.view kind index := by
  unfold lookup
  by_cases inside : index < scope.length kind
  · rw [if_pos inside]
    rfl
  · rw [if_neg inside]
    exact (List.getElem?_eq_none (Nat.le_of_not_lt inside)).symm

theorem view_seen (scope : Scope) : scope.seen.view = scope.view := by
  funext kind index
  exact lookup_length scope kind index

theorem resolve_eq_ok_iff {kind : ItemKind} {index : Nat} {item : ItemType} :
    scope.resolve kind index = .ok item ↔ scope.view kind index = some item := by
  rw [resolve, resolveVisible, lookup_length]
  cases scope.view kind index with
  | none => simp [reject]
  | some found => simp

theorem instanceAt_eq_ok_iff {index : Nat} {exports : InstanceType} :
    scope.instanceAt index = .ok exports ↔ scope.view .inst index = some (.inst exports) := by
  simp only [instanceAt, bind_eq_ok_iff, resolve_eq_ok_iff]
  constructor
  · intro resolved
    obtain ⟨item, found, success⟩ := resolved
    cases item with
    | inst others => simpa [ItemType.instance?, found] using success
    | core type => simp [ItemType.instance?] at success
    | module imports exports => simp [ItemType.instance?] at success
  · intro found
    exact ⟨.inst exports, found, rfl⟩

theorem moduleAt_eq_ok_iff {index : Nat} {type : ModuleType} :
    scope.moduleAt index = .ok type ↔ scope.view .module index = some (.ofModule type) := by
  simp only [moduleAt, bind_eq_ok_iff, resolve_eq_ok_iff]
  constructor
  · intro resolved
    obtain ⟨item, found, success⟩ := resolved
    cases item with
    | module imports exports =>
        simp only [ItemType.module?, Except.ok.injEq] at success
        rw [found, ← success]
        rfl
    | core type => simp [ItemType.module?] at success
    | inst exports => simp [ItemType.module?] at success
  · intro found
    exact ⟨.ofModule type, found, rfl⟩

theorem checkType_eq_ok_iff {type item : ItemType} :
    scope.checkType type = .ok item ↔ type.Sound ∧ type = item := by
  rw [← ItemType.defect?_eq_none_iff, checkType]
  cases type.defect? with
  | none => simp
  | some defect => simp [reject]

theorem typeOfKind_eq_ok_iff {kind : KindCode} {index : Nat} {item : ItemType} :
    scope.typeOfKind kind index = .ok item ↔
      scope.view .type index = some item ∧ kind = .ofKind item.kind := by
  simp only [typeOfKind, typeAt, bind_eq_ok_iff, resolve_eq_ok_iff]
  constructor
  · intro resolved
    obtain ⟨type, found, success⟩ := resolved
    by_cases kinds : KindCode.ofKind type.kind = kind
    · rw [if_pos kinds, Except.ok.injEq] at success
      exact ⟨success ▸ found, success ▸ kinds.symm⟩
    · rw [if_neg kinds] at success
      simp [reject] at success
  · intro declared
    obtain ⟨found, kinds⟩ := declared
    exact ⟨item, found, if_pos kinds.symm⟩

theorem resolveEntries_nil (role : Role) (seen : List Name) :
    scope.resolveEntries role seen [] = .ok [] := rfl

theorem resolveEntries_cons (role : Role) (seen : List Name) (name : Name) (type : TypeExpr)
    (rest : List (Name × TypeExpr)) :
    scope.resolveEntries role seen ((name, type) :: rest) = do
      let item ← scope.resolveType type
      if name ∈ seen then scope.reject (.duplicateEntry role name)
      else return (name, item) :: (← scope.resolveEntries role (name :: seen) rest) := rfl

mutual

/-- A stated type resolves to exactly the type that it spells in view of the scope. -/
theorem resolveType_eq_ok_iff : ∀ {type : TypeExpr} {item : ItemType},
    scope.resolveType type = .ok item ↔ Spells scope.view type item
  | .complete type, item => by
      rw [resolveType, checkType_eq_ok_iff]
      constructor
      · intro checked
        obtain ⟨sound, same⟩ := checked
        exact same ▸ .complete sound
      · intro spelt
        cases spelt with
        | complete sound => exact ⟨sound, rfl⟩
  | .indexed kind index, item => by
      rw [resolveType, typeOfKind_eq_ok_iff]
      constructor
      · intro declared
        exact .indexed declared.1 declared.2
      · intro spelt
        cases spelt with
        | indexed declared kinds => exact ⟨declared, kinds⟩
  | .inst exports, item => by
      simp only [resolveType, bind_eq_ok_iff, resolveEntries_eq_ok_iff, List.not_mem_nil,
        not_false_eq_true, implies_true, true_and]
      constructor
      · intro resolved
        obtain ⟨entries, ⟨distinct, each⟩, success⟩ := resolved
        cases success
        exact .inst each distinct
      · intro spelt
        cases spelt with
        | inst each distinct => exact ⟨_, ⟨distinct, each⟩, rfl⟩
  | .module imports exports, item => by
      simp only [resolveType, bind_eq_ok_iff, resolveEntries_eq_ok_iff, List.not_mem_nil,
        not_false_eq_true, implies_true, true_and]
      constructor
      · intro resolved
        obtain ⟨importTypes, ⟨distinctImports, eachImport⟩, exportTypes,
          ⟨distinctExports, eachExport⟩, success⟩ := resolved
        cases success
        exact .module eachImport distinctImports eachExport distinctExports
      · intro spelt
        cases spelt with
        | module eachImport distinctImports eachExport distinctExports =>
            exact ⟨_, ⟨distinctImports, eachImport⟩, _, ⟨distinctExports, eachExport⟩, rfl⟩

theorem resolveEntries_eq_ok_iff {role : Role} : ∀ {seen : List Name}
    {entries : List (Name × TypeExpr)} {items : InstanceType},
    scope.resolveEntries role seen entries = .ok items ↔
      (∀ name ∈ entries.map Prod.fst, name ∉ seen) ∧ (entries.map Prod.fst).Nodup ∧
        SpellsEach scope.view entries items
  | seen, [], items => by
      simp only [resolveEntries_nil, Except.ok.injEq, List.map_nil, List.not_mem_nil, false_implies,
        implies_true, List.nodup_nil, true_and]
      constructor
      · intro same
        exact same ▸ .nil
      · intro spelt
        cases spelt with
        | nil => rfl
  | seen, (name, type) :: rest, items => by
      simp only [resolveEntries_cons, bind_eq_ok_iff, resolveType_eq_ok_iff]
      by_cases repeated : name ∈ seen
      · simp [repeated, reject]
      · simp only [if_neg repeated, bind_eq_ok_iff, resolveEntries_eq_ok_iff, List.map_cons,
          List.forall_mem_cons, List.nodup_cons]
        constructor
        · intro resolved
          obtain ⟨item, first, others, ⟨fresh, distinct, later⟩, success⟩ := resolved
          cases success
          refine ⟨⟨repeated, ?_⟩, ⟨?_, distinct⟩, .cons first later⟩
          · intro other inside before
            exact fresh other inside (List.mem_cons_of_mem _ before)
          · intro inside
            exact fresh name inside List.mem_cons_self
        · intro spelt
          obtain ⟨⟨_, fresh⟩, ⟨notLater, distinct⟩, each⟩ := spelt
          cases each with
          | cons first later =>
              refine ⟨_, first, _, ⟨?_, distinct, later⟩, rfl⟩
              intro other inside before
              rcases List.mem_cons.mp before with same | earlier
              · exact notLater (same ▸ inside)
              · exact fresh other inside earlier

end

theorem resolveItem_eq_ok_iff {use : Use} {reference : ItemRef} {item : ItemType} :
    scope.resolveItem use reference = .ok item ↔ Names scope.view reference item := by
  unfold resolveItem
  by_cases isType : reference.kind = .ofKind .type
  · have refused : reference.kind.isDefinition = false := by simp [KindCode.isDefinition, isType]
    rw [refused]
    constructor
    · intro success
      simp [reject] at success
    · intro named
      obtain ⟨kind, notType, code, _⟩ := named
      exact absurd (KindCode.ofKind_injective (code.symm.trans isType)) notType
  · have accepted : reference.kind.isDefinition = true := by simp [KindCode.isDefinition, isType]
    rw [accepted, if_pos rfl]
    constructor
    · intro success
      cases known : reference.kind.kind? with
      | none => simp [known] at success
      | some kind =>
          simp only [known, resolve_eq_ok_iff] at success
          have code := KindCode.eq_ofKind_of_kind? known
          exact ⟨kind, fun same => isType (same ▸ code), code, success⟩
    · intro named
      obtain ⟨kind, notType, code, found⟩ := named
      rw [code, KindCode.kind?_ofKind]
      exact resolve_eq_ok_iff.mpr found

theorem resolveItems_eq_ok_iff {use : Use} {references : List (Name × ItemRef)}
    {items : InstanceType} :
    scope.resolveItems use references = .ok items ↔ NamesEach scope.view references items := by
  induction references generalizing items with
  | nil =>
      simp only [resolveItems, Except.ok.injEq, NamesEach, Entries.Aligned]
      constructor
      · intro same
        exact same ▸ .nil
      · intro named
        cases named with
        | nil => rfl
  | cons reference rest ih =>
      simp only [resolveItems, bind_eq_ok_iff, resolveItem_eq_ok_iff, ih]
      constructor
      · intro resolved
        obtain ⟨item, first, others, later, success⟩ := resolved
        cases success
        exact .cons ⟨rfl, first⟩ later
      · intro named
        cases named with
        | @cons _ entry _ others first later =>
            obtain ⟨same, named⟩ := first
            refine ⟨entry.2, named, others, later, ?_⟩
            rw [same]
            rfl

theorem findExport_eq_ok_iff {target : ExportAlias} {item : ItemType} :
    scope.findExport target = .ok item ↔
      ∃ exports, scope.view .inst target.instanceIndex = some (.inst exports) ∧
        exports.lookup target.name = some item ∧ target.kind = .ofKind item.kind := by
  simp only [findExport, bind_eq_ok_iff, instanceAt_eq_ok_iff]
  refine exists_congr fun exports => and_congr_right fun _ => ?_
  by_cases isType : target.kind = .ofKind .type
  · have refused : target.kind.isDefinition = false := by simp [KindCode.isDefinition, isType]
    have never : target.kind ≠ .ofKind item.kind := fun same =>
      item.kind_ne_type (KindCode.ofKind_injective (same.symm.trans isType))
    simp [refused, reject, never]
  · have accepted : target.kind.isDefinition = true := by simp [KindCode.isDefinition, isType]
    rw [accepted, if_pos rfl]
    cases exports.lookup target.name with
    | none => simp [reject]
    | some found =>
        by_cases kinds : KindCode.ofKind found.kind = target.kind
        · simp only [if_pos kinds, Except.ok.injEq, Option.some.injEq]
          constructor
          · intro same
            exact ⟨same, same ▸ kinds.symm⟩
          · intro same
            exact same.1
        · simp only [if_neg kinds, reject, reduceCtorEq, Option.some.injEq, false_iff, not_and]
          intro same
          exact same ▸ fun code => kinds code.symm

theorem findOuter_eq_ok_iff {outer : List Enclosing} {target : OuterAlias} {kind : ItemKind}
    {item : ItemType} :
    (∃ ancestor, scope.findOuter outer target = .ok (kind, ancestor, item)) ↔
      target.kind.outerKind? = some kind ∧
        ∃ view, (outer.map Enclosing.view)[target.depth]? = some view ∧
          view kind target.index = some item := by
  unfold findOuter
  cases target.kind.outerKind? with
  | none => simp [reject]
  | some found =>
      simp only [List.getElem?_map, Option.some.injEq]
      cases outer[target.depth]? with
      | none => simp [reject]
      | some ancestor =>
          simp only [Option.map_some, Option.some.injEq, exists_eq_left']
          cases visible : ancestor.view found target.index with
          | none =>
              have absent : ancestor.scope.lookup found target.index (ancestor.visible found) =
                none := visible
              simp only [absent, reject, reduceCtorEq, exists_false, false_iff, not_and]
              intro same
              simp [← same, visible]
          | some entry =>
              have present : ancestor.scope.lookup found target.index (ancestor.visible found) =
                some entry := visible
              simp only [present, Except.ok.injEq, Prod.mk.injEq]
              constructor
              · intro same
                obtain ⟨_, sameKind, _, sameItem⟩ := same
                rw [← sameKind, visible, sameItem]
                exact ⟨rfl, rfl⟩
              · intro same
                obtain ⟨sameKind, sameItem⟩ := same
                rw [← sameKind, visible, Option.some.injEq] at sameItem
                exact ⟨_, sameKind, rfl, sameItem⟩

end Scope

end Linkage

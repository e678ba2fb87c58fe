import Linkage.Proofs.Order
import Linkage.Proofs.Preservation

/-!
# Shapes and complete types

A type can be stated in full or written out, as a shape whose entries are stated in turn, and parts
of a shape can again be stated in full. Complete types are searched for defects as a whole, shapes
part by part and in the order in which they are written. `Writes` says which types a stated type
writes out without help from a scope. Both ways to state a type come to that type, or to an error
that names a core type of it that is ill formed (`Writes.reads`); if there is only one such core
type, they cannot be told apart.
-/

set_option autoImplicit false

namespace Linkage

/-! ## Leaves -/

namespace ItemType

def IllFormedLeaf (type : ItemType) (leaf : CoreType) : Prop :=
  OccursIn (.core leaf) type ∧ leaf.defect? ≠ none

/-- A defect of a type is the defect of one of its leaves. -/
theorem exists_leaf_of_defect? {type : ItemType} {defect : Defect}
    (found : type.defect? = some defect) :
    ∃ leaf, OccursIn (.core leaf) type ∧ leaf.defect? = some defect := by
  have entries : ∀ {entries : InstanceType} {defect : Defect},
      (∀ entry ∈ entries, entry.2.defect? = some defect →
        ∃ leaf, OccursIn (.core leaf) entry.2 ∧ leaf.defect? = some defect) →
      Entries.defect? entries = some defect → ∃ name inner leaf,
        entries.lookup name = some inner ∧ OccursIn (.core leaf) inner ∧
          leaf.defect? = some defect := by
    intro entries defect each here
    obtain ⟨entry, inside, defective⟩ := List.exists_of_findSome?_eq_some here
    obtain ⟨leaf, occurs, same⟩ := each entry (Entries.mem_of_mem_sorted inside) defective
    exact ⟨entry.1, entry.2, leaf, Entries.mem_sorted_iff.mp inside, occurs, same⟩
  induction type using entryInduction with
  | core type => exact ⟨type, .refl, defect?_core type ▸ found⟩
  | inst exports ih =>
      rw [defect?_inst] at found
      obtain ⟨_, _, leaf, entry, occurs, same⟩ := entries ih found
      exact ⟨leaf, .ofInstance entry occurs, same⟩
  | module imports exports importsIh exportsIh =>
      rw [defect?_module, Option.or_eq_some_iff] at found
      rcases found with imported | ⟨_, exported⟩
      · obtain ⟨_, _, leaf, entry, occurs, same⟩ := entries importsIh imported
        exact ⟨leaf, .ofImport entry occurs, same⟩
      · obtain ⟨_, _, leaf, entry, occurs, same⟩ := entries exportsIh exported
        exact ⟨leaf, .ofExport entry occurs, same⟩

/-- Types that are the same have the same leaves. -/
theorem OccursIn.of_same {leaf : CoreType} {type other : ItemType}
    (occurs : OccursIn (.core leaf) type) (same : Same type other) :
    OccursIn (.core leaf) other := by
  induction occurs generalizing other with
  | refl =>
      cases same with
      | core => exact .refl
  | ofInstance entry _ ih =>
      cases same with
      | inst named each =>
          obtain ⟨there, found⟩ := Entries.exists_lookup_of_has (named _) entry
          exact .ofInstance found (ih (each _ _ _ entry found))
  | ofImport entry _ ih =>
      cases same with
      | module named each _ _ =>
          obtain ⟨there, found⟩ := Entries.exists_lookup_of_has (named _) entry
          exact .ofImport found (ih (each _ _ _ entry found))
  | ofExport entry _ ih =>
      cases same with
      | module _ _ named each =>
          obtain ⟨there, found⟩ := Entries.exists_lookup_of_has (named _) entry
          exact .ofExport found (ih (each _ _ _ entry found))

theorem Sound.of_same {type other : ItemType} (sound : type.Sound) (same : Same type other) :
    other.Sound := by
  induction same with
  | core type => exact sound
  | inst named each ih =>
      cases sound with
      | inst sounds =>
          refine .inst fun name item found => ?_
          obtain ⟨there, entry⟩ := Entries.exists_lookup_of_has (named name).symm found
          exact ih name there item entry found (sounds name there entry)
  | module imported _ exported _ importsIh exportsIh =>
      cases sound with
      | module soundImports soundExports =>
          refine .module (fun name item found => ?_) fun name item found => ?_
          · obtain ⟨there, entry⟩ := Entries.exists_lookup_of_has (imported name).symm found
            exact importsIh name there item entry found (soundImports name there entry)
          · obtain ⟨there, entry⟩ := Entries.exists_lookup_of_has (exported name).symm found
            exact exportsIh name there item entry found (soundExports name there entry)

end ItemType

/-! ## Written types -/

/-- A stated type writes out a type: a complete type is the same, and a shape states an entry for
each name of the type, once and in any order, that writes out what stands there. -/
inductive TypeExpr.Writes : TypeExpr → ItemType → Prop where
  | complete {stated type : ItemType} (same : stated.Same type) : Writes (.complete stated) type
  | inst {stated : List (Name × TypeExpr)} {exports : InstanceType}
      (distinct : (stated.map Prod.fst).Nodup)
      (named : ∀ name, Entries.has stated name = Entries.has exports name)
      (each : ∀ name part item, stated.lookup name = some part → exports.lookup name = some item →
        Writes part item) : Writes (.inst stated) (.inst exports)
  | module {statedImports statedExports : List (Name × TypeExpr)} {imports exports : InstanceType}
      (distinctImports : (statedImports.map Prod.fst).Nodup)
      (imported : ∀ name, Entries.has statedImports name = Entries.has imports name)
      (eachImport : ∀ name part item, statedImports.lookup name = some part →
        imports.lookup name = some item → Writes part item)
      (distinctExports : (statedExports.map Prod.fst).Nodup)
      (exported : ∀ name, Entries.has statedExports name = Entries.has exports name)
      (eachExport : ∀ name part item, statedExports.lookup name = some part →
        exports.lookup name = some item → Writes part item) :
      Writes (.module statedImports statedExports) (.module imports exports)

/-- A shape may have its entries in any order. -/
theorem Entries.of_perm {α β : Type} {related : α → β → Prop} {stated parts : List (Name × α)}
    {entries : List (Name × β)} (perm : stated.Perm parts)
    (aligned : Entries.Aligned related parts entries) (distinct : (entries.map Prod.fst).Nodup) :
    (stated.map Prod.fst).Nodup ∧
      (∀ name, Entries.has stated name = Entries.has entries name) ∧
      ∀ name part item, stated.lookup name = some part → entries.lookup name = some item →
        related part item := by
  have names : (stated.map Prod.fst).Perm (entries.map Prod.fst) :=
    aligned.names_eq ▸ perm.map Prod.fst
  have distinctParts : (parts.map Prod.fst).Nodup := aligned.names_eq ▸ distinct
  refine ⟨names.nodup_iff.mpr distinct, ?_, ?_⟩
  · intro name
    rw [Bool.eq_iff_iff, Entries.has_iff_mem, Entries.has_iff_mem, names.mem_iff]
  · intro name part item here there
    obtain ⟨offer, offered, holds⟩ := aligned.covers name item there
    have among : (name, part) ∈ parts := perm.mem_iff.mp (Entries.mem_of_lookup here)
    have same : parts.lookup name = some part := Entries.lookup_of_mem_nodup distinctParts among
    rw [offered, Option.some.injEq] at same
    exact same ▸ holds

theorem SpellsEach.aligned {view : View} {stated : List (Name × TypeExpr)} {items : InstanceType}
    (each : SpellsEach view stated items) : Entries.Aligned (Spells view) stated items := by
  induction stated generalizing items with
  | nil =>
      cases each
      exact .nil
  | cons entry rest ih =>
      cases each with
      | cons first later => exact .cons ⟨rfl, first⟩ (ih later)

namespace Scope

variable {scope : Scope}

def Blames (scope : Scope) (type : ItemType) (fault : Fault) : Prop :=
  ∃ leaf defect, ItemType.OccursIn (.core leaf) type ∧ leaf.defect? = some defect ∧
    fault = .invalid ⟨scope.name, .defect defect⟩

/-- A stated type is read as a type: it resolves to the same type, which then is sound, or one of
its leaves is to blame. -/
structure Reads (scope : Scope) (stated : TypeExpr) (type : ItemType) : Prop where
  found : ∀ item, scope.resolveType stated = .ok item → item.Same type ∧ type.Sound
  refused : ∀ fault, scope.resolveType stated = .error fault → scope.Blames type fault

/-- With distinct names, resolving entries fails only where one of them does. -/
theorem exists_error_of_resolveEntries {role : Role} {seen : List Name}
    {entries : List (Name × TypeExpr)} {fault : Fault}
    (fresh : ∀ name ∈ entries.map Prod.fst, name ∉ seen) (distinct : (entries.map Prod.fst).Nodup)
    (failed : scope.resolveEntries role seen entries = .error fault) :
    ∃ entry ∈ entries, scope.resolveType entry.2 = .error fault := by
  induction entries generalizing seen with
  | nil => cases failed
  | cons entry rest ih =>
      obtain ⟨name, type⟩ := entry
      rw [List.map_cons, List.nodup_cons] at distinct
      have new : name ∉ seen := fresh name List.mem_cons_self
      rw [resolveEntries_cons] at failed
      rcases bind_eq_error_iff.mp failed with here | ⟨item, _, failed⟩
      · exact ⟨_, List.mem_cons_self, here⟩
      · rw [if_neg new] at failed
        rcases bind_eq_error_iff.mp failed with later | ⟨_, _, impossible⟩
        · have freshLater : ∀ other ∈ rest.map Prod.fst, other ∉ name :: seen := by
            intro other inside before
            rcases List.mem_cons.mp before with same | earlier
            · exact distinct.1 (same ▸ inside)
            · exact fresh other (List.mem_cons_of_mem _ inside) earlier
          obtain ⟨entry, inside, here⟩ := ih freshLater distinct.2 later
          exact ⟨entry, List.mem_cons_of_mem _ inside, here⟩
        · cases impossible

section Family

variable {role : Role} {stated : List (Name × TypeExpr)} {entries items : InstanceType}
  (named : ∀ name, Entries.has stated name = Entries.has entries name)
  (each : ∀ name part item, stated.lookup name = some part → entries.lookup name = some item →
    scope.Reads part item)

include named each

theorem same_of_resolveEntries (resolved : scope.resolveEntries role [] stated = .ok items) :
    (∀ name, Entries.has items name = Entries.has entries name) ∧
    (∀ name item type, items.lookup name = some item → entries.lookup name = some type →
      item.Same type) ∧
    ∀ name type, entries.lookup name = some type → type.Sound := by
  have aligned := (resolveEntries_eq_ok_iff.mp resolved).2.2.aligned
  have names : ∀ name, Entries.has items name = Entries.has entries name := by
    intro name
    rw [← named, Bool.eq_iff_iff, Entries.has_iff_mem, Entries.has_iff_mem, aligned.names_eq]
  have both : ∀ name item type, items.lookup name = some item →
      entries.lookup name = some type → item.Same type ∧ type.Sound := by
    intro name item type here there
    obtain ⟨part, written, spelt⟩ := aligned.covers name item here
    exact (each name part type written there).found item (resolveType_eq_ok_iff.mpr spelt)
  refine ⟨names, fun name item type here there => (both name item type here there).1, ?_⟩
  intro name type there
  obtain ⟨item, here⟩ := Entries.exists_lookup_of_has (names name).symm there
  exact (both name item type here there).2

theorem blames_of_resolveEntries (distinct : (stated.map Prod.fst).Nodup) {fault : Fault}
    (failed : scope.resolveEntries role [] stated = .error fault) :
    ∃ name type, entries.lookup name = some type ∧ scope.Blames type fault := by
  obtain ⟨entry, inside, refused⟩ :=
    exists_error_of_resolveEntries (fun _ _ => List.not_mem_nil) distinct failed
  have written := Entries.lookup_of_mem_nodup distinct inside
  obtain ⟨type, there⟩ := Entries.exists_lookup_of_has (named entry.1) written
  exact ⟨entry.1, type, there, (each entry.1 entry.2 type written there).refused fault refused⟩

end Family

end Scope

namespace TypeExpr

theorem reads_complete {stated type : ItemType} (same : stated.Same type) (scope : Scope) :
    scope.Reads (.complete stated) type where
  found := by
    intro item resolved
    obtain ⟨sound, equal⟩ := Scope.checkType_eq_ok_iff.mp resolved
    exact ⟨equal ▸ same, sound.of_same same⟩
  refused := by
    intro fault failed
    rw [Scope.resolveType, Scope.checkType] at failed
    cases defective : stated.defect? with
    | none =>
        rw [defective] at failed
        cases failed
    | some defect =>
        rw [defective] at failed
        cases failed
        obtain ⟨leaf, occurs, here⟩ := ItemType.exists_leaf_of_defect? defective
        exact ⟨leaf, defect, occurs.of_same same, here, rfl⟩

/-- A stated type that writes out a type is read as that type, in every scope. -/
theorem Writes.reads {stated : TypeExpr} {type : ItemType} (writes : stated.Writes type)
    (scope : Scope) : scope.Reads stated type := by
  induction writes with
  | complete same => exact reads_complete same scope
  | @inst stated exports distinct named _ ih =>
      constructor
      case found =>
        intro item resolved
        rw [Scope.resolveType, bind_eq_ok_iff] at resolved
        obtain ⟨entries, resolved, same⟩ := resolved
        cases same
        obtain ⟨names, each, sound⟩ := Scope.same_of_resolveEntries named ih resolved
        exact ⟨.inst names each, .inst sound⟩
      case refused =>
        intro fault failed
        rw [Scope.resolveType] at failed
        rcases bind_eq_error_iff.mp failed with refused | ⟨_, _, impossible⟩
        · obtain ⟨name, type, entry, leaf, defect, occurs, here, same⟩ :=
            Scope.blames_of_resolveEntries named ih distinct refused
          exact ⟨leaf, defect, .ofInstance entry occurs, here, same⟩
        · cases impossible
  | @module statedImports statedExports imports exports distinctImports imported _ distinctExports
      exported _ importsIh exportsIh =>
      constructor
      case found =>
        intro item resolved
        simp only [Scope.resolveType, bind_eq_ok_iff] at resolved
        obtain ⟨importTypes, resolvedImports, exportTypes, resolvedExports, same⟩ := resolved
        cases same
        obtain ⟨importNames, eachImport, soundImports⟩ :=
          Scope.same_of_resolveEntries imported importsIh resolvedImports
        obtain ⟨exportNames, eachExport, soundExports⟩ :=
          Scope.same_of_resolveEntries exported exportsIh resolvedExports
        exact ⟨.module importNames eachImport exportNames eachExport,
          .module soundImports soundExports⟩
      case refused =>
        intro fault failed
        rw [Scope.resolveType] at failed
        rcases bind_eq_error_iff.mp failed with refused | ⟨_, _, failed⟩
        · obtain ⟨name, type, entry, leaf, defect, occurs, here, same⟩ :=
            Scope.blames_of_resolveEntries imported importsIh distinctImports refused
          exact ⟨leaf, defect, .ofImport entry occurs, here, same⟩
        · rcases bind_eq_error_iff.mp failed with refused | ⟨_, _, impossible⟩
          · obtain ⟨name, type, entry, leaf, defect, occurs, here, same⟩ :=
              Scope.blames_of_resolveEntries exported exportsIh distinctExports refused
            exact ⟨leaf, defect, .ofExport entry occurs, here, same⟩
          · cases impossible

/-- In every scope a written type resolves exactly if the type is sound. -/
theorem Writes.resolves_iff {stated : TypeExpr} {type : ItemType} (writes : stated.Writes type)
    (scope : Scope) : (∃ item, scope.resolveType stated = .ok item) ↔ type.Sound := by
  constructor
  · rintro ⟨item, resolved⟩
    exact ((writes.reads scope).found item resolved).2
  · intro sound
    cases resolved : scope.resolveType stated with
    | ok item => exact ⟨item, rfl⟩
    | error fault =>
        obtain ⟨leaf, defect, occurs, here, _⟩ := (writes.reads scope).refused fault resolved
        cases ItemType.Sound.of_occursIn occurs sound with
        | core sound =>
            rw [CoreType.defect?_eq_none_iff.mpr sound] at here
            cases here

/-- If a type has a single ill-formed leaf, the defect of that leaf is reported. -/
theorem Writes.resolveType_eq_defect {stated : TypeExpr} {type : ItemType}
    (writes : stated.Writes type) (scope : Scope) {leaf : CoreType}
    (illFormed : type.IllFormedLeaf leaf)
    (only : ∀ other, type.IllFormedLeaf other → other = leaf) {defect : Defect}
    (defective : leaf.defect? = some defect) :
    scope.resolveType stated = .error (.invalid ⟨scope.name, .defect defect⟩) := by
  cases resolved : scope.resolveType stated with
  | ok item =>
      have sound := ((writes.reads scope).found item resolved).2
      cases ItemType.Sound.of_occursIn illFormed.1 sound with
      | core sound => exact absurd (CoreType.defect?_eq_none_iff.mpr sound) illFormed.2
  | error fault =>
      obtain ⟨other, found, occurs, here, same⟩ := (writes.reads scope).refused fault resolved
      have equal := only other ⟨occurs, by rw [here]; exact Option.some_ne_none found⟩
      rw [equal, defective, Option.some.injEq] at here
      rw [same, here]

/-- **A shape and the complete type that it writes out are checked alike.** In every scope the one
resolves if and only if the other does, and then both come to the type. If the type has a single
ill-formed leaf, both fail with the error that names the defect of that leaf. -/
theorem resolveType_of_writes {stated : TypeExpr} {type : ItemType} (writes : stated.Writes type)
    (scope : Scope) :
    ((∃ item, scope.resolveType stated = .ok item) ↔
      ∃ item, scope.resolveType (.complete type) = .ok item) ∧
    (∀ item, scope.resolveType stated = .ok item → item.Same type) ∧
    (∀ item, scope.resolveType (.complete type) = .ok item → item = type) ∧
    ∀ leaf, type.IllFormedLeaf leaf → (∀ other, type.IllFormedLeaf other → other = leaf) →
      ∃ defect, leaf.defect? = some defect ∧
        scope.resolveType stated = .error (.invalid ⟨scope.name, .defect defect⟩) ∧
        scope.resolveType (.complete type) = .error (.invalid ⟨scope.name, .defect defect⟩) := by
  have complete : (TypeExpr.complete type).Writes type :=
    .complete ((ItemType.Below.refl type).antisymm (.refl type))
  refine ⟨?_, ?_, ?_, ?_⟩
  · rw [writes.resolves_iff scope, complete.resolves_iff scope]
  · intro item resolved
    exact ((writes.reads scope).found item resolved).1
  · intro item resolved
    exact (Scope.checkType_eq_ok_iff.mp resolved).2.symm
  · intro leaf illFormed only
    obtain ⟨defect, defective⟩ := Option.ne_none_iff_exists'.mp illFormed.2
    exact ⟨defect, defective, writes.resolveType_eq_defect scope illFormed only defective,
      complete.resolveType_eq_defect scope illFormed only defective⟩

/-- The type of modules that take a function and an instance with a memory, and give one away. -/
def crate (pages : Nat) : ItemType :=
  .module [([1], .func [.i32] []), ([2], .inst [([3], .memory ⟨pages, none⟩)])]
    [([4], .inst [([3], .memory ⟨1, none⟩)])]

def crateShape (pages : Nat) : TypeExpr :=
  .module [([2], .inst [([3], .complete (.memory ⟨pages, none⟩))]),
      ([1], .complete (.func [.i32] []))]
    [([4], .complete (.inst [([3], .memory ⟨1, none⟩)]))]

theorem writes_crate (pages : Nat) : (crateShape pages).Writes (crate pages) := by
  have full : ∀ type : ItemType, (TypeExpr.complete type).Writes type := fun type =>
    .complete ((ItemType.Below.refl type).antisymm (.refl type))
  have one : ∀ {name : Name} {part : TypeExpr} {item : ItemType}, part.Writes item →
      Entries.Aligned Writes [(name, part)] [(name, item)] := fun writes => .cons ⟨rfl, writes⟩ .nil
  have memory : (TypeExpr.inst [([3], .complete (.memory ⟨pages, none⟩))]).Writes
      (.inst [([3], .memory ⟨pages, none⟩)]) := by
    obtain ⟨distinct, named, each⟩ := Entries.of_perm (.refl _) (one (full _)) (by simp)
    exact .inst distinct named each
  have imports : Entries.Aligned Writes
      [([1], .complete (.func [.i32] [])), ([2], .inst [([3], .complete (.memory ⟨pages, none⟩))])]
      [([1], .func [.i32] []), ([2], .inst [([3], .memory ⟨pages, none⟩)])] :=
    (one (full _)).append (one memory)
  obtain ⟨distinctImports, imported, eachImport⟩ :=
    Entries.of_perm (.swap _ _ _) imports (by simp)
  obtain ⟨distinctExports, exported, eachExport⟩ :=
    Entries.of_perm (.refl _) (one (full _)) (by simp)
  exact .module distinctImports imported eachImport distinctExports exported eachExport

/-- Only the memory that is taken can be ill formed. -/
theorem eq_of_illFormedLeaf_crate {pages : Nat} {leaf : CoreType}
    (illFormed : (crate pages).IllFormedLeaf leaf) : leaf = .memory ⟨pages, none⟩ := by
  have inMemory : ∀ {pages : Nat}, ItemType.OccursIn (.core leaf)
      (.inst [([3], .memory ⟨pages, none⟩)]) → leaf = .memory ⟨pages, none⟩ := by
    intro pages occurs
    cases occurs with
    | ofInstance entry deeper =>
        have among := Entries.mem_of_lookup entry
        simp only [List.mem_singleton, Prod.mk.injEq] at among
        obtain ⟨rfl, rfl⟩ := among
        cases deeper
        rfl
  obtain ⟨occurs, defective⟩ := illFormed
  cases occurs with
  | ofImport entry deeper =>
      have among := Entries.mem_of_lookup entry
      simp only [List.mem_cons, Prod.mk.injEq, List.not_mem_nil, or_false] at among
      rcases among with ⟨rfl, rfl⟩ | ⟨rfl, rfl⟩
      · cases deeper
        exact absurd rfl defective
      · exact inMemory deeper
  | ofExport entry deeper =>
      have among := Entries.mem_of_lookup entry
      simp only [List.mem_singleton, Prod.mk.injEq] at among
      obtain ⟨rfl, rfl⟩ := among
      rw [inMemory deeper] at defective
      exact absurd rfl defective

theorem resolveType_of_writes_crate :
    (∃ item, (Scope.opened (.root [5])).resolveType (crateShape 1) = .ok item ∧
      item.Same (crate 1)) ∧
    (crate 70000).IllFormedLeaf (.memory ⟨70000, none⟩) ∧
    (Scope.opened (.root [5])).resolveType (crateShape 70000) =
      .error (.invalid ⟨[5], .defect (.memory ⟨70000, none⟩)⟩) ∧
    (Scope.opened (.root [5])).resolveType (.complete (crate 70000)) =
      .error (.invalid ⟨[5], .defect (.memory ⟨70000, none⟩)⟩) := by
  have memory : ItemType.OccursIn (.core (.memory ⟨70000, none⟩))
      (.inst [([3], .memory ⟨70000, none⟩)]) :=
    .ofInstance (show List.lookup [3] _ = _ from rfl) .refl
  have illFormed : (crate 70000).IllFormedLeaf (.memory ⟨70000, none⟩) :=
    ⟨.ofImport (show List.lookup [2] _ = _ from rfl) memory, by decide⟩
  obtain ⟨resolves, same, _, _⟩ :=
    resolveType_of_writes (writes_crate 1) (Scope.opened (.root [5]))
  obtain ⟨_, _, _, fails⟩ :=
    resolveType_of_writes (writes_crate 70000) (Scope.opened (.root [5]))
  obtain ⟨item, resolved⟩ := resolves.mpr ⟨crate 1, by decide +kernel⟩
  obtain ⟨defect, defective, failed, failedInFull⟩ :=
    fails _ illFormed fun _ => eq_of_illFormedLeaf_crate
  cases defective
  exact ⟨⟨item, resolved, same item resolved⟩, illFormed, failed, failedInFull⟩

end TypeExpr

end Linkage

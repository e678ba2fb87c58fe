import Linkage.Proofs.Entries
import Linkage.Type.Mismatch.Equations

/-!
# The order of types

`Below` states subtyping as a relation between types whose entries are finite maps, and
`isSubtype_iff` says that the search for a mismatch decides it. Imports exchange the two sides, so
the search and the relation are compared in both directions at once. `Same` is equality up to the
order of entries and to entries that do not count.
-/

set_option autoImplicit false

namespace Linkage

/-- Induction on types, with a hypothesis for each entry. -/
@[elab_as_elim]
theorem ItemType.entryInduction {motive : ItemType → Prop} (type : ItemType)
    (core : ∀ type, motive (.core type))
    (inst : ∀ exports, (∀ entry ∈ exports, motive entry.2) → motive (.inst exports))
    (module : ∀ imports exports, (∀ entry ∈ imports, motive entry.2) →
      (∀ entry ∈ exports, motive entry.2) → motive (.module imports exports)) : motive type := by
  refine @ItemType.rec motive (fun entries => ∀ entry ∈ entries, motive entry.2)
    (fun entry => motive entry.2) core inst module ?_ ?_ (fun _ _ holds => holds) type
  · intro entry inside
    exact absurd inside List.not_mem_nil
  · intro head rest first others entry inside
    rcases List.mem_cons.mp inside with same | later
    · exact same ▸ first
    · exact others entry later

namespace ItemType

/-- Subtyping. Equal core types are related; an instance type is below another if it has all its
exports, each with a type below; module types are related the same way in their exports and the
other way round in their imports. -/
inductive Below : ItemType → ItemType → Prop where
  | core (type : CoreType) : Below (.core type) (.core type)
  | inst {lower upper : InstanceType}
      (named : ∀ name, Entries.has upper name → Entries.has lower name)
      (each : ∀ name offer want, lower.lookup name = some offer → upper.lookup name = some want →
        Below offer want) : Below (.inst lower) (.inst upper)
  | module {lowerImports lowerExports upperImports upperExports : InstanceType}
      (exported : ∀ name, Entries.has upperExports name → Entries.has lowerExports name)
      (eachExport : ∀ name offer want, lowerExports.lookup name = some offer →
        upperExports.lookup name = some want → Below offer want)
      (imported : ∀ name, Entries.has lowerImports name → Entries.has upperImports name)
      (eachImport : ∀ name offer want, upperImports.lookup name = some offer →
        lowerImports.lookup name = some want → Below offer want) :
      Below (.module lowerImports lowerExports) (.module upperImports upperExports)

/-- The same type up to the order of entries and to entries that do not count. -/
inductive Same : ItemType → ItemType → Prop where
  | core (type : CoreType) : Same (.core type) (.core type)
  | inst {left right : InstanceType}
      (named : ∀ name, Entries.has left name = Entries.has right name)
      (each : ∀ name value other, left.lookup name = some value →
        right.lookup name = some other → Same value other) : Same (.inst left) (.inst right)
  | module {leftImports leftExports rightImports rightExports : InstanceType}
      (imported : ∀ name, Entries.has leftImports name = Entries.has rightImports name)
      (eachImport : ∀ name value other, leftImports.lookup name = some value →
        rightImports.lookup name = some other → Same value other)
      (exported : ∀ name, Entries.has leftExports name = Entries.has rightExports name)
      (eachExport : ∀ name value other, leftExports.lookup name = some value →
        rightExports.lookup name = some other → Same value other) :
      Same (.module leftImports leftExports) (.module rightImports rightExports)

end ItemType

namespace Entries

variable {α β : Type}

theorem covers_iff {related : α → β → Prop} {offered : List (Name × α)}
    {wanted : List (Name × β)} :
    Covers related offered wanted ↔
      (∀ name, has wanted name → has offered name) ∧
        ∀ name offer want, offered.lookup name = some offer → wanted.lookup name = some want →
          related offer want := by
  constructor
  · intro covers
    refine ⟨?_, ?_⟩
    · intro name wantedName
      obtain ⟨want, found⟩ := has_iff.mp wantedName
      obtain ⟨offer, offeredName, _⟩ := covers name want found
      exact has_iff.mpr ⟨offer, offeredName⟩
    · intro name offer want offeredName found
      obtain ⟨value, same, holds⟩ := covers name want found
      rw [offeredName, Option.some.injEq] at same
      exact same ▸ holds
  · rintro ⟨named, each⟩ name want found
    obtain ⟨offer, offeredName⟩ := has_iff.mp (named name (has_iff.mpr ⟨want, found⟩))
    exact ⟨offer, offeredName, each name offer want offeredName found⟩

theorem mismatch?_eq_none_iff {role : Role} {offered : List (Name × α)} {wanted : List (Name × β)}
    {compare : α → β → Option Mismatch} :
    mismatch? role offered wanted compare = none ↔
      Covers (fun offer want => compare offer want = none) offered wanted := by
  rw [mismatch?, List.findSome?_eq_none_iff]
  constructor
  · intro met name want found
    have atName := met (name, want) (mem_sorted_iff.mpr found)
    unfold mismatchAt? at atName
    cases offeredName : offered.lookup name with
    | none => simp [offeredName] at atName
    | some offer =>
        simp only [offeredName, Option.map_eq_none_iff] at atName
        exact ⟨offer, rfl, atName⟩
  · intro covers entry inside
    obtain ⟨offer, offeredName, fits⟩ := covers entry.1 entry.2 (mem_sorted_iff.mp inside)
    unfold mismatchAt?
    rw [offeredName]
    simp only [fits, Option.map_none]

end Entries

namespace ItemType

theorem below_inst_iff {lower upper : InstanceType} :
    Below (.inst lower) (.inst upper) ↔ Entries.Covers Below lower upper := by
  rw [Entries.covers_iff]
  constructor
  · intro below
    cases below with
    | inst named each => exact ⟨named, each⟩
  · rintro ⟨named, each⟩
    exact .inst named each

theorem below_module_iff {lowerImports lowerExports upperImports upperExports : InstanceType} :
    Below (.module lowerImports lowerExports) (.module upperImports upperExports) ↔
      Entries.Covers Below lowerExports upperExports ∧
        Entries.Covers Below upperImports lowerImports := by
  rw [Entries.covers_iff, Entries.covers_iff]
  constructor
  · intro below
    cases below with
    | module exported eachExport imported eachImport =>
        exact ⟨⟨exported, eachExport⟩, imported, eachImport⟩
  · rintro ⟨⟨exported, eachExport⟩, imported, eachImport⟩
    exact .module exported eachExport imported eachImport

theorem below_ofModule {item : ItemType} {type : ModuleType}
    (below : item.Below (.ofModule type)) :
    ∃ better : ModuleType, item = .ofModule better ∧
      Entries.Covers Below better.exports type.exports ∧
      Entries.Covers Below type.imports better.imports := by
  cases item with
  | module imports exports => exact ⟨⟨imports, exports⟩, rfl, below_module_iff.mp below⟩
  | core other => nomatch below
  | inst others => nomatch below

theorem below_ofInst {item : ItemType} {exports : InstanceType}
    (below : item.Below (.inst exports)) :
    ∃ better, item = .inst better ∧ Entries.Covers Below better exports := by
  cases item with
  | inst others => exact ⟨others, rfl, below_inst_iff.mp below⟩
  | core other => nomatch below
  | module imports others => nomatch below

theorem Below.kind_eq {lower upper : ItemType} (below : Below lower upper) :
    lower.kind = upper.kind := by
  cases below <;> rfl

end ItemType

theorem CoreType.mismatch?_eq_none_iff {found expected : CoreType} :
    found.mismatch? expected = none ↔ found = expected := by
  unfold CoreType.mismatch?
  constructor
  · intro none
    by_contra different
    by_cases kinds : found.kind = expected.kind
    · simp [kinds, different] at none
    · simp [kinds] at none
  · rintro rfl
    simp

namespace ItemType

def Decided (type other : ItemType) : Prop :=
  (type.mismatch? other = none ↔ Below type other) ∧
    (other.mismatch? type = none ↔ Below other type)

theorem Decided.of_kind_ne {type other : ItemType} (different : type.kind ≠ other.kind) :
    Decided type other := by
  constructor
  · rw [mismatch?_of_kind_ne different]
    exact ⟨nofun, fun below => absurd below.kind_eq different⟩
  · rw [mismatch?_of_kind_ne (Ne.symm different)]
    exact ⟨nofun, fun below => absurd below.kind_eq.symm different⟩

theorem covers_iff_of_decided {entries others : InstanceType}
    (decided : ∀ entry ∈ entries, ∀ other, Decided entry.2 other) :
    (Entries.Covers (fun offer want => offer.mismatch? want = none) entries others ↔
      Entries.Covers Below entries others) ∧
    (Entries.Covers (fun offer want => offer.mismatch? want = none) others entries ↔
      Entries.Covers Below others entries) := by
  refine ⟨⟨?_, ?_⟩, ⟨?_, ?_⟩⟩
  · intro covers
    exact covers.imp fun offer inside want _ => (decided offer inside want.2).1.mp
  · intro covers
    exact covers.imp fun offer inside want _ => (decided offer inside want.2).1.mpr
  · intro covers
    exact covers.imp fun offer _ want inside => (decided want inside offer.2).2.mp
  · intro covers
    exact covers.imp fun offer _ want inside => (decided want inside offer.2).2.mpr

theorem mismatch?_inst_eq_none_iff {found expected : InstanceType} :
    (ItemType.inst found).mismatch? (.inst expected) = none ↔
      Entries.Covers (fun offer want => offer.mismatch? want = none) found expected := by
  rw [mismatch?_inst, InstanceType.mismatch?_eq, Entries.mismatch?_eq_none_iff]

theorem mismatch?_module_eq_none_iff {imports exports otherImports otherExports : InstanceType} :
    (ItemType.module imports exports).mismatch? (.module otherImports otherExports) = none ↔
      Entries.Covers (fun offer want => offer.mismatch? want = none) exports otherExports ∧
        Entries.Covers (fun offer want => offer.mismatch? want = none) otherImports imports := by
  have same := ModuleType.mismatch?_eq ⟨imports, exports⟩ ⟨otherImports, otherExports⟩
  rw [← mismatch?_module, InstanceType.mismatch?_eq] at same
  rw [ofModule, ofModule] at same
  rw [same, Option.or_eq_none_iff, Entries.mismatch?_eq_none_iff, Entries.mismatch?_eq_none_iff]

/-- The comparison decides the relation. Imports are compared the other way round, so both
directions are proved together. -/
theorem decided (type other : ItemType) : Decided type other := by
  -- The recursion follows one of the two types, at whichever end of a comparison it stands.
  induction type using entryInduction generalizing other with
  | core type =>
      cases other with
      | core other =>
          simp only [Decided, mismatch?_core, CoreType.mismatch?_eq_none_iff]
          refine ⟨⟨?_, ?_⟩, ⟨?_, ?_⟩⟩
          · rintro rfl
            exact .core type
          · rintro ⟨⟩
            rfl
          · rintro rfl
            exact .core other
          · rintro ⟨⟩
            rfl
      | inst others => exact .of_kind_ne (by cases type <;> nofun)
      | module imports exports => exact .of_kind_ne (by cases type <;> nofun)
  | inst exports ih =>
      cases other with
      | core other => exact .of_kind_ne (by cases other <;> nofun)
      | inst others =>
          have entries := @covers_iff_of_decided exports others ih
          simp only [Decided, mismatch?_inst_eq_none_iff, below_inst_iff]
          exact entries
      | module imports exports => exact .of_kind_ne nofun
  | module imports exports importsIh exportsIh =>
      cases other with
      | core other => exact .of_kind_ne (by cases other <;> nofun)
      | inst others => exact .of_kind_ne nofun
      | module otherImports otherExports =>
          have onExports := @covers_iff_of_decided exports otherExports exportsIh
          have onImports := @covers_iff_of_decided imports otherImports importsIh
          simp only [Decided, mismatch?_module_eq_none_iff, below_module_iff]
          exact ⟨and_congr onExports.1 onImports.2, and_congr onExports.2 onImports.1⟩

theorem mismatch?_eq_none_iff {found expected : ItemType} :
    found.mismatch? expected = none ↔ Below found expected := (decided found expected).1

theorem isSubtype_iff {found expected : ItemType} :
    found.isSubtype expected = true ↔ Below found expected := by
  rw [isSubtype, Option.isNone_iff_eq_none, mismatch?_eq_none_iff]

end ItemType

theorem InstanceType.mismatch?_eq_none_iff {found expected : InstanceType} :
    InstanceType.mismatch? found expected = none ↔
      Entries.Covers ItemType.Below found expected := by
  rw [← ItemType.mismatch?_inst, ItemType.mismatch?_eq_none_iff, ItemType.below_inst_iff]

theorem ModuleType.mismatch?_eq_none_iff {found expected : ModuleType} :
    found.mismatch? expected = none ↔
      Entries.Covers ItemType.Below found.exports expected.exports ∧
        Entries.Covers ItemType.Below expected.imports found.imports := by
  rw [← ItemType.mismatch?_module, ItemType.mismatch?_eq_none_iff, ItemType.ofModule,
    ItemType.ofModule, ItemType.below_module_iff]

end Linkage

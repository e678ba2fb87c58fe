import Linkage.Proofs.Subtyping
import Linkage.Type.Defect.Equations

/-!
# Well-formed types

`Sound` says of a type what the search for defects looks for, on every core type that counts, and
`defect?_eq_none_iff` that a type in which no defect is found is sound.
-/

set_option autoImplicit false

namespace Linkage

def CoreType.Sound : CoreType → Prop
  | .func type => ∀ valType ∈ type.params ++ type.results, valType.isValid = true
  | .table type => type.isValid = true
  | .memory limits => limits.isMemory = true
  | .global type => type.content.isValid = true

/-- A type all of whose core types are sound, as far as the entries they are in count. -/
inductive ItemType.Sound : ItemType → Prop where
  | core {type : CoreType} (sound : type.Sound) : Sound (.core type)
  | inst {exports : InstanceType}
      (each : ∀ name type, exports.lookup name = some type → Sound type) : Sound (.inst exports)
  | module {imports exports : InstanceType}
      (eachImport : ∀ name type, imports.lookup name = some type → Sound type)
      (eachExport : ∀ name type, exports.lookup name = some type → Sound type) :
      Sound (.module imports exports)

theorem CoreType.defect?_eq_none_iff {type : CoreType} : type.defect? = none ↔ type.Sound := by
  cases type with
  | func type => simp [CoreType.defect?, CoreType.Sound, or_imp, forall_and]
  | table type => simp [CoreType.defect?, CoreType.Sound]
  | memory limits => simp [CoreType.defect?, CoreType.Sound]
  | global type => simp [CoreType.defect?, CoreType.Sound]

theorem Entries.defect?_eq_none_iff {entries : InstanceType} :
    Entries.defect? entries = none ↔
      ∀ name type, entries.lookup name = some type → type.defect? = none := by
  rw [Entries.defect?, List.findSome?_eq_none_iff]
  constructor
  · intro each name type found
    exact each (name, type) (Entries.mem_sorted_iff.mpr found)
  · intro each entry inside
    exact each entry.1 entry.2 (Entries.mem_sorted_iff.mp inside)

theorem Entries.defect?_eq_none_iff_sound {entries : InstanceType}
    (decided : ∀ entry ∈ entries, entry.2.defect? = none ↔ entry.2.Sound) :
    Entries.defect? entries = none ↔
      ∀ name type, entries.lookup name = some type → type.Sound := by
  rw [Entries.defect?_eq_none_iff]
  refine forall₃_congr fun name type found => ?_
  exact decided (name, type) (Entries.mem_of_lookup found)

theorem ItemType.defect?_eq_none_iff {type : ItemType} : type.defect? = none ↔ type.Sound := by
  induction type using ItemType.entryInduction with
  | core type =>
      rw [ItemType.defect?_core, CoreType.defect?_eq_none_iff]
      constructor
      · exact .core
      · rintro ⟨sound⟩
        exact sound
  | inst exports ih =>
      rw [ItemType.defect?_inst, Entries.defect?_eq_none_iff_sound ih]
      constructor
      · exact .inst
      · intro sound
        cases sound with
        | inst each => exact each
  | module imports exports importsIh exportsIh =>
      rw [ItemType.defect?_module, Option.or_eq_none_iff,
        Entries.defect?_eq_none_iff_sound importsIh, Entries.defect?_eq_none_iff_sound exportsIh]
      constructor
      · rintro ⟨eachImport, eachExport⟩
        exact .module eachImport eachExport
      · intro sound
        cases sound with
        | module eachImport eachExport => exact ⟨eachImport, eachExport⟩

theorem ItemType.isWellFormed_iff {type : ItemType} : type.isWellFormed = true ↔ type.Sound := by
  rw [ItemType.isWellFormed, Option.isNone_iff_eq_none, ItemType.defect?_eq_none_iff]

end Linkage

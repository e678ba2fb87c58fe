import Linkage.Type.Defect

/-!
# Equations of the search for defects

The search skips types that it has found to have no defect. This makes no difference to what it
finds: `defect?` satisfies one equation for each kind of item, in terms of the defects of the
entries, and need not be unfolded again.
-/

set_option autoImplicit false

namespace Linkage

def Entries.defect? (entries : List (Name × ItemType)) : Option Defect :=
  (Entries.sorted entries).findSome? fun entry => entry.2.defect?

def ItemType.IsFree (type : ItemType) : Prop := type.defect? = none

theorem ItemType.defect?_eq (type : ItemType) : type.defect? = type.inspect.fault? := by
  rw [ItemType.defect?, ItemType.shared_eq]

theorem ItemType.inspections_eq (entries : List (Name × ItemType)) :
    ItemType.inspections entries = entries.map fun entry => (entry.1, entry.2.inspect) := by
  induction entries with
  | nil => rfl
  | cons entry rest ih => rw [ItemType.inspections, ih, List.map_cons]

/-- Searching entries finds the first defect if the searches of their types do. -/
theorem Entries.finds_inspect {entries : List (Name × ItemType)}
    (each : ∀ entry ∈ entries,
      Search.Finds ItemType.IsFree entry.2.inspect entry.2.defect?) :
    Search.Finds ItemType.IsFree (Entries.inspect (ItemType.inspections entries))
      (Entries.defect? entries) := by
  have same : Entries.inspect (ItemType.inspections entries) =
      Search.inOrder (fun entry : Name × ItemType => entry.2.inspect) (Entries.sorted entries) := by
    funext settled
    rw [Entries.inspect, ItemType.inspections_eq, sorted_map, Search.inOrder, List.foldlM_map]
    rfl
  rw [same]
  exact Search.finds_inOrder fun entry inside => each entry (mem_of_mem_sorted inside)

@[simp]
theorem ItemType.defect?_core (type : CoreType) : (ItemType.core type).defect? = type.defect? := by
  have finds : Search.Finds ItemType.IsFree (.ofOption type.defect?) type.defect? :=
    Search.finds_ofOption _
  rw [ItemType.defect?_eq, ItemType.inspect, finds.fault?_eq]

theorem ItemType.defect?_inst_of_finds {exports : List (Name × ItemType)}
    (finds : Search.Finds ItemType.IsFree (Entries.inspect (ItemType.inspections exports))
      (Entries.defect? exports)) :
    (ItemType.inst exports).defect? = Entries.defect? exports := by
  rw [ItemType.defect?_eq, ItemType.inspect, Search.fault?_settle]
  exact finds.fault?_eq

theorem ItemType.defect?_module_of_finds {imports exports : List (Name × ItemType)}
    (first : Search.Finds ItemType.IsFree (Entries.inspect (ItemType.inspections imports))
      (Entries.defect? imports))
    (second : Search.Finds ItemType.IsFree (Entries.inspect (ItemType.inspections exports))
      (Entries.defect? exports)) :
    (ItemType.module imports exports).defect? =
      (Entries.defect? imports).or (Entries.defect? exports) := by
  rw [ItemType.defect?_eq, ItemType.inspect, Search.fault?_settle]
  exact (first.bind second).fault?_eq

mutual

/-- The search of a type finds its defect, whatever types without defects it is given. -/
theorem ItemType.finds_inspect : ∀ type : ItemType,
    Search.Finds ItemType.IsFree type.inspect type.defect?
  | .core type => by
      rw [ItemType.defect?_core, ItemType.inspect]
      exact Search.finds_ofOption _
  | .inst exports => by
      have finds := Entries.finds_inspect (ItemType.finds_inspect_of_mem exports)
      have same := ItemType.defect?_inst_of_finds finds
      rw [same, ItemType.inspect]
      exact finds.settle (same ▸ Iff.rfl)
  | .module imports exports => by
      have first := Entries.finds_inspect (ItemType.finds_inspect_of_mem imports)
      have second := Entries.finds_inspect (ItemType.finds_inspect_of_mem exports)
      have same := ItemType.defect?_module_of_finds first second
      rw [same, ItemType.inspect]
      exact (first.bind second).settle (same ▸ Iff.rfl)

theorem ItemType.finds_inspect_of_mem : ∀ entries : List (Name × ItemType), ∀ entry ∈ entries,
    Search.Finds ItemType.IsFree entry.2.inspect entry.2.defect?
  | [], _, inside => absurd inside List.not_mem_nil
  | (_, type) :: rest, entry, inside => by
      rcases List.mem_cons.mp inside with first | later
      · subst first
        exact ItemType.finds_inspect type
      · exact ItemType.finds_inspect_of_mem rest entry later

end

/-- An instance type has the defect of its exports. -/
@[simp]
theorem ItemType.defect?_inst (exports : List (Name × ItemType)) :
    (ItemType.inst exports).defect? = Entries.defect? exports :=
  ItemType.defect?_inst_of_finds (Entries.finds_inspect fun entry _ => entry.2.finds_inspect)

/-- A module type has the defect of its imports, or else of its exports. -/
@[simp]
theorem ItemType.defect?_module (imports exports : List (Name × ItemType)) :
    (ItemType.module imports exports).defect? =
      (Entries.defect? imports).or (Entries.defect? exports) :=
  ItemType.defect?_module_of_finds (Entries.finds_inspect fun entry _ => entry.2.finds_inspect)
    (Entries.finds_inspect fun entry _ => entry.2.finds_inspect)

end Linkage

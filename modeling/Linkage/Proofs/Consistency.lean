import Mathlib.Data.List.Nodup
import Linkage.Proofs.Tables

/-!
# Consistency of the registry

After any operations, failed ones among them, the tables of a registry agree with each other. A name
has a position exactly if the module at this position has the name; what is written of a module is
what its validation comes to, and is never written again.
-/

set_option autoImplicit false

namespace Linkage

open Registry (Op)

namespace Catalogue

variable {catalogue : Catalogue}

/-- The modules have names, different ones, and no host instance has one of them. -/
structure Tidy (catalogue : Catalogue) : Prop where
  distinct : (catalogue.modules.map ModuleDef.name).Nodup
  named : ∀ module ∈ catalogue.modules, module.name ≠ []
  apart : ∀ module ∈ catalogue.modules, module.name ∉ catalogue.hosts.map Prod.fst

theorem isTaken_eq_false_iff {name : Name} :
    catalogue.isTaken name = false ↔
      name ∉ catalogue.modules.map ModuleDef.name ∧ name ∉ catalogue.hosts.map Prod.fst := by
  rw [isTaken, Bool.or_eq_false_iff, ← Bool.not_eq_true (Entries.has _ _), Entries.has_iff_mem]
  simp

theorem Tidy.register (tidy : catalogue.Tidy) (module : Option ModuleDef) :
    ((catalogue.register module).toOption.getD catalogue).Tidy := by
  cases module with
  | none => exact tidy
  | some module =>
      rw [Catalogue.register]
      split
      · exact tidy
      next named =>
        split
        · exact tidy
        next free =>
          obtain ⟨new, apart⟩ := isTaken_eq_false_iff.mp (Bool.eq_false_iff.mpr free)
          have among : ∀ other ∈ catalogue.modules ++ [module],
              other ∈ catalogue.modules ∨ other = module := by simp
          refine ⟨?_, ?_, ?_⟩
          · change ((catalogue.modules ++ [module]).map ModuleDef.name).Nodup
            simpa [List.nodup_append, tidy.distinct] using new
          · intro other inside
            rcases among other inside with before | rfl
            · exact tidy.named other before
            · simpa using named
          · intro other inside
            rcases among other inside with before | rfl
            · exact tidy.apart other before
            · exact apart

theorem Tidy.registerHost (tidy : catalogue.Tidy) (host : Host) :
    ((catalogue.registerHost host).toOption.getD catalogue).Tidy := by
  rw [Catalogue.registerHost]
  split
  · exact tidy
  next free =>
    obtain ⟨new, _⟩ := isTaken_eq_false_iff.mp (Bool.eq_false_iff.mpr free)
    refine ⟨tidy.distinct, tidy.named, ?_⟩
    intro module inside
    change module.name ∉ (catalogue.hosts ++ [(host.name, host.items)]).map Prod.fst
    rw [List.map_append, List.mem_append, not_or]
    refine ⟨tidy.apart module inside, ?_⟩
    intro taken
    have same : module.name = host.name := List.mem_singleton.mp taken
    exact new (same ▸ List.mem_map_of_mem inside)

theorem Tidy.after (tidy : catalogue.Tidy) (op : Op) : (catalogue.after op).Tidy := by
  cases op with
  | register module => exact tidy.register module
  | registerHost name items =>
      rw [Catalogue.after]
      cases buildHost name items with
      | error fault => exact tidy
      | ok host => exact tidy.registerHost host
  | _ => exact tidy

theorem Tidy.run (tidy : catalogue.Tidy) (ops : List Op) : (catalogue.run ops).Tidy := by
  induction ops generalizing catalogue with
  | nil => exact tidy
  | cons op rest ih => exact ih (tidy.after op)

/-- Names that differ are found at their positions. -/
theorem Tidy.findIdx?_eq_some_iff (tidy : catalogue.Tidy) {name : Name} {position : Nat} :
    catalogue.modules.findIdx? (fun module => module.name = name) = some position ↔
      ∃ module, catalogue.modules[position]? = some module ∧ module.name = name := by
  constructor
  · intro found
    obtain ⟨inside, named, _⟩ := List.findIdx?_eq_some_iff_getElem.mp found
    exact ⟨_, List.getElem?_eq_getElem inside, of_decide_eq_true named⟩
  · rintro ⟨module, there, named⟩
    obtain ⟨inside, here⟩ := List.getElem?_eq_some_iff.mp there
    refine List.findIdx?_eq_some_iff_getElem.mpr ⟨inside, by simp [here, named], ?_⟩
    intro earlier before same
    have insideNames : position < (catalogue.modules.map ModuleDef.name).length := by simpa
    have sameName : (catalogue.modules.map ModuleDef.name)[earlier] =
        (catalogue.modules.map ModuleDef.name)[position] := by
      simpa [here, named] using same
    have := tidy.distinct.getElem_inj_iff.mp sameName
    omega

end Catalogue

namespace Registered

variable {nesting : Nat} {module next : Registered}

theorem eq_of_ofResult {outcome : Except Fault ModuleType} {verdict : Verdict}
    (reached : Verdict.ofResult outcome = .ok verdict) : outcome = verdict.mapError .invalid := by
  cases outcome with
  | ok type => cases reached; rfl
  | error fault =>
      cases fault with
      | invalid error => cases reached; rfl
      | missingModule scope => cases reached
      | misuse found => cases reached

theorem slot_single (module : Registered) : module.slot.type = none ∨ module.slot.error = none := by
  rw [slot, error?]
  cases module.verdict with
  | none => exact .inl rfl
  | some verdict =>
      cases verdict with
      | ok type => exact .inr rfl
      | error error => exact .inl rfl

theorem verdict_of_type {type : ModuleType} (written : module.slot.type = some type) :
    module.verdict = some (.ok type) := by
  rw [slot] at written
  cases kept : module.verdict with
  | none => simp [kept] at written
  | some verdict =>
      cases verdict with
      | ok found => simpa [kept, Except.toOption] using written
      | error error => simp [kept, Except.toOption] at written

theorem verdict_of_error {error : ValidationError} (written : module.slot.error = some error) :
    module.verdict = some (.error error) := by
  rw [slot, error?] at written
  cases kept : module.verdict with
  | none => simp [kept] at written
  | some verdict =>
      cases verdict with
      | ok found => simp [kept] at written
      | error error => simpa [kept] using written

theorem Honest.outcome_eq (honest : module.Honest nesting) {verdict : Verdict}
    (kept : module.verdict = some verdict) : module.outcome nesting = verdict.mapError .invalid :=
  eq_of_ofResult (honest verdict kept)

/-- A slot that has been written stays as it is. -/
theorem Stays.slot_eq (stays : module.Stays next) (written : module.slot.isPending = false) :
    next.slot = module.slot := by
  rw [isPending_slot, isPending, Option.isNone_eq_false_iff, Option.isSome_iff_exists] at written
  obtain ⟨verdict, kept⟩ := written
  rw [slot, slot, error?, error?, stays.definition, stays.verdict verdict kept, kept]

end Registered

/-! ## Consistent tables -/

namespace Tables

/-- The tables agree with each other, and what is written of a module is what comes out when it is
validated. -/
structure Consistent (nesting : Nat) (tables : Tables) : Prop where
  positions : ∀ (name : Name) (position : Nat), tables.positions.lookup name = some position ↔
    ∃ slot, tables.modules[position]? = some slot ∧ slot.definition.name = name
  distinct : (tables.modules.map fun slot => slot.definition.name).Nodup
  named : ∀ slot ∈ tables.modules, slot.definition.name ≠ []
  apart : ∀ slot ∈ tables.modules, slot.definition.name ∉ tables.hosts.map Prod.fst
  single : ∀ slot ∈ tables.modules, slot.type = none ∨ slot.error = none
  typed : ∀ slot ∈ tables.modules, ∀ type, slot.type = some type →
    slot.definition.outcome nesting = .ok type
  refused : ∀ slot ∈ tables.modules, ∀ error, slot.error = some error →
    slot.definition.outcome nesting = .error (.invalid error)

/-- Modules and host instances stay where they are, and a slot that has been written stays as it
is. -/
structure Follows (tables later : Tables) : Prop where
  slots : ∀ (position : Nat) (slot : Slot), tables.modules[position]? = some slot →
    ∃ next, later.modules[position]? = some next ∧ next.definition = slot.definition ∧
      (slot.isPending = false → next = slot)
  hosts : tables.hosts <+: later.hosts

end Tables

namespace Registry

variable {registry later : Registry}

theorem run_tables (registry : Registry) (ops : List Op) :
    registry.tables.run ops = (registry.run ops).tables ∧ registry.Keeps (registry.run ops) := by
  induction ops generalizing registry with
  | nil => exact ⟨rfl, .refl registry⟩
  | cons op rest ih =>
      have first := Linking.performs_step registry op
      have stepped : (registry.tables.step op).2 = (registry.step op).1.tables :=
        congrArg Prod.snd first.on_eq
      obtain ⟨same, keeps⟩ := ih (registry.step op).1
      refine ⟨?_, first.keeps.trans keeps⟩
      change Tables.run (registry.tables.step op).2 rest = _
      rw [stepped]
      exact same

theorem Keeps.follows (keeps : registry.Keeps later) : registry.tables.Follows later.tables where
  slots := by
    intro position slot found
    obtain ⟨module, there, rfl⟩ := Option.map_eq_some_iff.mp (List.getElem?_map ▸ found)
    obtain ⟨next, here, stays⟩ := keeps.modules position module there
    refine ⟨next.slot, ?_, stays.definition, stays.slot_eq⟩
    exact List.getElem?_map.trans (congrArg (Option.map Registered.slot) here)
  hosts := keeps.hosts

theorem Faithful.consistent (faithful : registry.Faithful) (tidy : registry.catalogue.Tidy) :
    registry.tables.Consistent registry.nesting where
  positions := by
    intro name position
    change registry.positions.lookup name = _ ↔ _
    rw [faithful.positions, tidy.findIdx?_eq_some_iff]
    simp only [catalogue, tables, List.getElem?_map]
    cases registry.modules[position]? <;> simp [Registered.slot]
  distinct := by
    have names : (registry.tables.modules.map fun slot => slot.definition.name) =
        registry.catalogue.modules.map ModuleDef.name := by
      simp [tables, catalogue, Registered.slot]
    exact names ▸ tidy.distinct
  named := by
    intro slot inside
    obtain ⟨module, among, rfl⟩ := List.mem_map.mp inside
    exact tidy.named _ (List.mem_map_of_mem among)
  apart := by
    intro slot inside
    obtain ⟨module, among, rfl⟩ := List.mem_map.mp inside
    exact tidy.apart _ (List.mem_map_of_mem among)
  single := by
    intro slot inside
    obtain ⟨module, among, rfl⟩ := List.mem_map.mp inside
    exact module.slot_single
  typed := by
    intro slot inside type written
    obtain ⟨module, among, rfl⟩ := List.mem_map.mp inside
    exact (faithful.honest module among).outcome_eq (Registered.verdict_of_type written)
  refused := by
    intro slot inside error written
    obtain ⟨module, among, rfl⟩ := List.mem_map.mp inside
    exact (faithful.honest module among).outcome_eq (Registered.verdict_of_error written)

def Op.registers : Op → Bool
  | .register _ => true
  | .registerHost _ _ => true
  | _ => false

theorem register_of_error {module : Option ModuleDef} {fault : LinkFault}
    (failed : (registry.register module).2.result = .error fault) :
    (registry.register module).1 = registry := by
  cases module with
  | none => rfl
  | some module =>
      rw [register] at failed ⊢
      split
      · rfl
      next named =>
        rw [if_neg named] at failed
        split
        · rfl
        next free =>
          rw [if_neg free] at failed
          cases failed

theorem registerHost_of_error {host : Host} {fault : LinkFault}
    (failed : (registry.registerHost host).2.result = .error fault) :
    (registry.registerHost host).1 = registry := by
  rw [registerHost] at failed ⊢
  split
  · rfl
  next free =>
    rw [if_neg free] at failed
    cases failed

theorem of_andThen_returning {α β : Type} {run : Run α} {value : α → β} {fault : LinkFault}
    (failed : (andThen run fun next found => next.returning (value found)).2.result =
      .error fault) :
    run.2.result = .error fault ∧
      (andThen run fun next found => next.returning (value found)).1 = run.1 := by
  unfold andThen at failed ⊢
  cases outcome : run.2.result with
  | error found =>
      rw [outcome] at failed
      cases failed
      exact ⟨rfl, rfl⟩
  | ok found =>
      rw [outcome] at failed
      cases failed

/-- A registration that fails has done nothing. -/
theorem step_of_refused {op : Op} {fault : LinkFault} (registers : op.registers = true)
    (failed : (registry.step op).2.result = .error fault) : (registry.step op).1 = registry := by
  cases op with
  | register module =>
      obtain ⟨failed, same⟩ := of_andThen_returning failed
      exact same.trans (register_of_error failed)
  | registerHost name items =>
      have built : registry.buildHost name items =
        (registry, .ofExcept (Catalogue.buildHost name items)) := rfl
      rw [step, built] at failed ⊢
      cases found : Catalogue.buildHost name items with
      | error fault => rfl
      | ok host =>
          rw [found] at failed
          have refused : (andThen (registry.registerHost host) fun last type =>
            last.returning (Answer.instanceType type)).2.result = .error fault := failed
          obtain ⟨failed, same⟩ := of_andThen_returning refused
          exact same.trans (registerHost_of_error failed)
  | _ => cases registers

/-- What holds of tables that operations have led to, and of the registry after the same
operations. -/
structure Upheld (nesting : Nat) (registry : Registry) (tables : Tables) : Prop where
  same : tables = registry.tables
  steps : ∀ op, tables.step op = ((registry.step op).2.result, (registry.step op).1.tables)
  consistent : tables.Consistent nesting
  lasting : ∀ ops, tables.Follows (tables.run ops)
  refused : ∀ op fault, op.registers = true → (tables.step op).1 = .error fault →
    (tables.step op).2 = tables

theorem Faithful.upheld (faithful : registry.Faithful) (tidy : registry.catalogue.Tidy) :
    Upheld registry.nesting registry registry.tables := by
  have steps : ∀ op, registry.tables.step op =
      ((registry.step op).2.result, (registry.step op).1.tables) :=
    fun op => (Linking.performs_step registry op).on_eq
  refine ⟨rfl, steps, faithful.consistent tidy, ?_, ?_⟩
  · intro ops
    obtain ⟨same, keeps⟩ := run_tables registry ops
    rw [same]
    exact keeps.follows
  · intro op fault registers failed
    rw [steps op] at failed ⊢
    exact congrArg tables (step_of_refused registers failed)

/-- **The tables of a registry stay consistent.** After any operations, failed ones among them, the
operations in place have led to the tables of the registry. A name has a position exactly if there
is a module at this position that has the name; modules have names, each its own, and no host
instance has the name of a module. No module has both a type and an error, and what it has is what
its validation comes to and stays for good. A registration that fails changes nothing. -/
theorem run_upheld (nesting : Nat) (sideBySide : Bool) (channels : Option Channels)
    (ops : List Op) :
    Upheld nesting
      (run { nesting := nesting, sideBySide := sideBySide, channels := channels } ops)
      (Tables.run { nesting := nesting, sideBySide := sideBySide } ops) := by
  obtain ⟨faithful, stands⟩ := (Faithful.empty nesting sideBySide channels).run ops
  obtain ⟨same, keeps⟩ :=
    run_tables { nesting := nesting, sideBySide := sideBySide, channels := channels } ops
  have empty : Catalogue.Tidy { nesting := nesting } := ⟨List.nodup_nil, by simp, by simp⟩
  have upheld := faithful.upheld (stands ▸ empty.run ops)
  rw [keeps.nesting, ← same] at upheld
  exact upheld

/-- Two registrations are refused. The first validation finds an invalid module, the second one ends
at a definition without its module. -/
def roadstead : List Op :=
  [.register (some { name := [1] }), .register (some { name := [1] }), .registerHost [1] [],
    .register (some { name := [2], definitions := [.instantiate 0 []] }), .validateAll,
    .register (some { name := [3], definitions := [.absent] }), .validateAll]

theorem run_upheld_roadstead :
    ((Tables.run { nesting := 4, sideBySide := true } roadstead).modules.map fun slot =>
        (slot.definition.name, slot.type.isSome, slot.error.isSome)) =
      [([1], true, false), ([2], false, true), ([3], false, false)] ∧
    (Tables.run { nesting := 4, sideBySide := true } roadstead).positions.lookup [2] = some 1 ∧
    ∀ ops, ∃ slot error,
      ((Tables.run { nesting := 4, sideBySide := true } roadstead).run ops).modules[1]? =
        some slot ∧ slot.error = some error ∧
          slot.definition.outcome 4 = .error (.invalid error) := by
  have upheld := run_upheld 4 true none roadstead
  have written : (Tables.run { nesting := 4, sideBySide := true } roadstead).modules.map
      (fun slot => (slot.definition.name, slot.type.isSome, slot.error.isSome)) =
        [([1], true, false), ([2], false, true), ([3], false, false)] := by
    decide +kernel
  have second : ∃ slot,
      (Tables.run { nesting := 4, sideBySide := true } roadstead).modules[1]? = some slot ∧
        (slot.definition.name, slot.type.isSome, slot.error.isSome) = ([2], false, true) := by
    have found := congrArg (·[1]?) written
    exact Option.map_eq_some_iff.mp (List.getElem?_map ▸ found)
  obtain ⟨slot, there, shape⟩ := second
  obtain ⟨named, _, hasError⟩ : slot.definition.name = [2] ∧ slot.type.isSome = false ∧
      slot.error.isSome = true := by simpa using shape
  obtain ⟨error, refused⟩ := Option.isSome_iff_exists.mp hasError
  have settled : slot.isPending = false := by simp [Slot.isPending, refused]
  refine ⟨written, (upheld.consistent.positions _ _).mpr ⟨slot, there, named⟩, ?_⟩
  intro ops
  obtain ⟨next, here, _, kept⟩ := (upheld.lasting ops).slots 1 slot there
  rw [kept settled] at here
  exact ⟨slot, error, here, refused,
    upheld.consistent.refused slot (List.mem_of_getElem? there) error refused⟩

end Registry

end Linkage

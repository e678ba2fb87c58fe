import Linkage.Proofs.Catalogue
import Linkage.Proofs.InPlace

/-!
# The tables of a registry

The operations of a registry write to several tables: the list of modules, where the type and the
error of a module have a place each, the positions of names in that list, and the host instances.
`Linking` has the operations with their writes where they make them, which stay when an operation
fails later. `Performs` says that they do to the tables what the registry does, and that the
registry keeps what it has.
-/

set_option autoImplicit false

namespace Linkage

open Registry (Op Answer)

/-! ## Tables -/

structure Slot where
  definition : ModuleDef
  type : Option ModuleType := none
  error : Option ValidationError := none

namespace Slot

def isPending (slot : Slot) : Bool := slot.type.isNone && slot.error.isNone

/-- Writes a verdict to its place. The other place stays as it is. -/
def put (slot : Slot) : Verdict → Slot
  | .ok type => { slot with type := some type }
  | .error error => { slot with error := some error }

/-- What is told of a module: an error goes before a type. Pending modules are settled before they
are asked about. -/
def told (slot : Slot) : Except LinkFault ModuleType :=
  slot.error.elim (slot.type.elim (.error (.lookup ⟨slot.definition.name, .noModule⟩)) .ok)
    fun error => .error (.check (.invalid error))

end Slot

/-- The tables of a registry. What is logged has no influence on them. -/
structure Tables where
  nesting : Nat
  sideBySide : Bool
  modules : List Slot := []
  positions : List (Name × Nat) := []
  hosts : List (Name × InstanceType) := []

namespace Tables

def isTaken (tables : Tables) (name : Name) : Bool :=
  Entries.has tables.positions name || Entries.has tables.hosts name

def find (tables : Tables) (name : Name) : Except LinkFault (Nat × Slot) :=
  ((tables.positions.lookup name).bind fun position =>
    (tables.modules[position]?).map fun slot => (position, slot)).elim
      (.error (.lookup ⟨name, .noModule⟩)) .ok

def findHost (tables : Tables) (name : Name) : Except LinkFault InstanceType :=
  (tables.hosts.lookup name).elim (.error (.lookup ⟨name, .noHost⟩)) .ok

def pendingFrom (start : Nat) : List Slot → List (Nat × ModuleDef)
  | [] => []
  | slot :: rest =>
      if slot.isPending then (start, slot.definition) :: pendingFrom (start + 1) rest
      else pendingFrom (start + 1) rest

def errors (tables : Tables) : List ValidationError := tables.modules.filterMap Slot.error

end Tables

/-! ## Operations in place -/

abbrev Linking (α : Type) := InPlace LinkFault Tables α

namespace Linking

open InPlace (ask)

def requireFree (name : Name) : Linking Unit :=
  ask fun tables => if tables.isTaken name then .error (.lookup ⟨name, .collision⟩) else .ok ()

/-- The position is written before there is a module at it. -/
def register : Option ModuleDef → Linking Unit
  | none => throw .noModuleGiven
  | some module =>
      if module.name.isEmpty then throw (.lookup ⟨module.name, .unnamed⟩)
      else do
        requireFree module.name
        modify fun tables => { tables with
          positions := tables.positions ++ [(module.name, tables.modules.length)] }
        modify fun tables => { tables with
          modules := tables.modules ++ [{ definition := module }] }

def registerHost (host : Host) : Linking InstanceType := do
  requireFree host.name
  modify fun tables => { tables with hosts := tables.hosts ++ [(host.name, host.items)] }
  return host.items

def record (position : Nat) (verdict : Verdict) : Linking Unit :=
  modify fun tables => { tables with
    modules := tables.modules.modify position fun slot => slot.put verdict }

/-- Checks a module and writes the verdict. A fault that is no verdict passes. -/
def settle (position : Nat) (module : ModuleDef) : Linking Unit := do
  record position (← ask fun tables =>
    (Verdict.ofResult (module.outcome tables.nesting)).mapError .check)

def settleAll (pending : List (Nat × ModuleDef)) : Linking Unit :=
  pending.forM fun entry => settle entry.1 entry.2

def recordAll (found : List ((Nat × ModuleDef) × Verdict)) : Linking Unit :=
  found.forM fun entry => record entry.1.1 entry.2

def siblings (nesting : Nat) (pending : List (Nat × ModuleDef)) : Except Fault (List Verdict) :=
  Verdict.ofSiblings (ModuleDef.validate { nesting := nesting, listening := false })
    (pending.map Prod.snd)

/-- Nothing is written before all verdicts are there. -/
def settleTogether (pending : List (Nat × ModuleDef)) : Linking Unit := do
  let verdicts ← ask fun tables => (siblings tables.nesting pending).mapError .check
  recordAll (pending.zip verdicts)

def conclude : Linking Unit :=
  ask fun tables => if tables.errors.isEmpty then .ok () else .error (.rejected ⟨tables.errors⟩)

def settleEach (sideBySide : Bool) (pending : List (Nat × ModuleDef)) : Linking Unit :=
  if sideBySide && 1 < pending.length then settleTogether pending else settleAll pending

/-- The pending modules are listed before the first of them is settled. -/
def validateAll : Linking Unit := do
  let tables ← get
  settleEach tables.sideBySide (Tables.pendingFrom 0 tables.modules)
  conclude

def settlePending (position : Nat) (slot : Slot) : Linking Unit :=
  if slot.isPending then settle position slot.definition else pure ()

/-- The slot is read again after it has been written. -/
def moduleType (name : Name) : Linking ModuleType := do
  let found ← ask fun tables => tables.find name
  settlePending found.1 found.2
  let settled ← ask fun tables => tables.find name
  ask fun _ => settled.2.told

def hostInstance (name : Name) : Linking InstanceType := ask fun tables => tables.findHost name

def buildHost (name : Name) (items : List (Name × HostItem)) : Linking Host :=
  ask fun _ => Catalogue.buildHost name items

def argument : ArgumentSource → Linking (Name × ItemType)
  | .item name type => return (name, type)
  | .registeredHost name host => do return (name, .inst (← hostInstance host))
  | .moduleType name module => do return (name, .ofModule (← moduleType module))
  | .host name items => do
      let host ← buildHost name items
      return (host.name, .inst host.items)

def gather : List ArgumentSource → Linking Arguments
  | [] => return []
  | source :: rest => do
      let first ← argument source
      let others ← gather rest
      return first :: others

def instantiate (name : Name) (arguments : Arguments) : Linking InstanceType := do
  let type ← moduleType name
  ask fun _ => (type.instantiate name arguments).result.mapError .check

def perform : Op → Linking Answer
  | .attach _ => return .done
  | .register module => do
      register module
      return .done
  | .registerHost name items => do
      let host ← buildHost name items
      return .instanceType (← registerHost host)
  | .validateAll => do
      validateAll
      return .done
  | .moduleType name => do return .moduleType (← moduleType name)
  | .hostInstance name => do return .instanceType (← hostInstance name)
  | .instantiate name sources => do
      let arguments ← gather sources
      return .instantiated arguments.length (← instantiate name arguments)

end Linking

def Tables.step (tables : Tables) (op : Op) : Except LinkFault Answer × Tables :=
  (Linking.perform op).on tables

def Tables.run (tables : Tables) (ops : List Op) : Tables :=
  ops.foldl (fun current op => (current.step op).2) tables

/-! ## What a registry keeps -/

namespace Registered

variable {module next later : Registered} {options : Validation.Options}

/-- A module stays registered: its definition is the same, and so is the verdict that it had. -/
structure Stays (module next : Registered) : Prop where
  definition : next.definition = module.definition
  verdict : ∀ verdict, module.verdict = some verdict → next.verdict = some verdict

theorem Stays.refl (module : Registered) : module.Stays module := ⟨rfl, fun _ kept => kept⟩

theorem Stays.trans (first : module.Stays next) (second : next.Stays later) :
    module.Stays later where
  definition := second.definition.trans first.definition
  verdict := fun verdict kept => second.verdict verdict (first.verdict verdict kept)

theorem stays_settle (options : Validation.Options) (module : Registered) :
    module.Stays (module.settle options).1 where
  definition := definition_settle options module
  verdict := by
    intro verdict kept
    rw [settle, kept]
    exact kept

theorem stays_settleAll (options : Validation.Options) (modules : List Registered) :
    List.Forall₂ (fun next module => Stays module next) (settleAll options modules).1 modules := by
  induction modules with
  | nil => exact .nil
  | cons module rest ih =>
      have here := stays_settle options module
      simp only [settleAll]
      cases (module.settle options).2.result with
      | error fault =>
          have unchanged : List.Forall₂ (fun next module => Stays module next) rest rest :=
            List.forall₂_same.mpr fun other _ => .refl other
          exact List.Forall₂.cons here unchanged
      | ok verdict => exact List.Forall₂.cons here ih

theorem stays_settleTogether {modules : List Registered}
    {together : List Registered × List Event}
    (success : settleTogether options modules = .ok together) :
    List.Forall₂ (fun next module => Stays module next) together.1 modules := by
  induction modules generalizing together with
  | nil =>
      cases success
      exact .nil
  | cons module rest ih =>
      rw [settleTogether] at success
      cases kept : module.verdict with
      | some verdict =>
          rw [kept] at success
          obtain ⟨others, later, same⟩ := bind_eq_ok_iff.mp success
          cases same
          exact .cons (.refl module) (ih later)
      | none =>
          rw [kept] at success
          obtain ⟨verdict, _, success⟩ := bind_eq_ok_iff.mp success
          obtain ⟨others, later, same⟩ := bind_eq_ok_iff.mp success
          cases same
          refine .cons ⟨rfl, ?_⟩ (ih later)
          intro found isKept
          rw [kept] at isKept
          cases isKept

theorem verdict_of_settle {verdict : Verdict}
    (reached : (module.settle options).2.result = .ok verdict) :
    (module.settle options).1.verdict = some verdict := by
  rw [settle] at reached ⊢
  cases kept : module.verdict with
  | some found =>
      rw [kept] at reached
      rw [Except.ok.inj reached.symm]
      exact kept
  | none =>
      rw [kept] at reached
      cases outcome : Verdict.ofResult (module.definition.validate options).result with
      | error fault => simp [outcome] at reached
      | ok found =>
          simp only [outcome] at reached ⊢
          rw [Except.ok.inj reached]

def slot (module : Registered) : Slot :=
  ⟨module.definition, module.verdict.bind Except.toOption, module.error?⟩

theorem slot_of_pending (pending : module.verdict = none) :
    module.slot = ⟨module.definition, none, none⟩ := by
  rw [slot, error?, pending]
  rfl

theorem slot_put (pending : module.verdict = none) (verdict : Verdict) :
    module.slot.put verdict = ({ module with verdict := some verdict } : Registered).slot := by
  rw [slot_of_pending pending]
  cases verdict <;> rfl

theorem isPending_slot (module : Registered) : module.slot.isPending = module.isPending := by
  cases kept : module.verdict with
  | none =>
      rw [slot_of_pending kept, isPending, kept]
      rfl
  | some verdict =>
      rw [slot, error?, isPending, kept]
      cases verdict <;> rfl

/-- What is told of a module with a verdict is the verdict. -/
theorem told_slot {verdict : Verdict} (kept : module.verdict = some verdict) :
    module.slot.told = verdict.mapError fun error => .check (.invalid error) := by
  rw [slot, error?, kept]
  cases verdict <;> rfl

end Registered

namespace Registry

variable {registry next later : Registry}

structure Keeps (registry later : Registry) : Prop where
  nesting : later.nesting = registry.nesting
  modules : ∀ (position : Nat) (module : Registered), registry.modules[position]? = some module →
    ∃ next, later.modules[position]? = some next ∧ module.Stays next
  hosts : registry.hosts <+: later.hosts

theorem Keeps.of_modules (nesting : later.nesting = registry.nesting)
    (same : later.modules = registry.modules) (hosts : registry.hosts <+: later.hosts) :
    registry.Keeps later where
  nesting := nesting
  modules := fun _ module found => ⟨module, same ▸ found, .refl module⟩
  hosts := hosts

theorem Keeps.refl (registry : Registry) : registry.Keeps registry :=
  .of_modules rfl rfl List.prefix_rfl

theorem Keeps.trans (first : registry.Keeps next) (second : next.Keeps later) :
    registry.Keeps later where
  nesting := second.nesting.trans first.nesting
  modules := by
    intro position module found
    obtain ⟨middle, there, stays⟩ := first.modules position module found
    obtain ⟨last, thereLater, staysLater⟩ := second.modules position middle there
    exact ⟨last, thereLater, stays.trans staysLater⟩
  hosts := first.hosts.trans second.hosts

theorem Keeps.of_forall₂ {modules : List Registered}
    (each : List.Forall₂ (fun next module => Registered.Stays module next) modules
      registry.modules) : registry.Keeps { registry with modules := modules } where
  nesting := rfl
  modules := fun _ _ found => exists_getElem?_of_forall₂ each found
  hosts := List.prefix_rfl

theorem Keeps.set {position : Nat} {module settled : Registered}
    (found : registry.modules[position]? = some module) (stays : module.Stays settled) :
    registry.Keeps { registry with modules := registry.modules.set position settled } where
  nesting := rfl
  modules := by
    intro place other there
    obtain ⟨inside, _⟩ := List.getElem?_eq_some_iff.mp found
    by_cases same : position = place
    · subst same
      cases found.symm.trans there
      exact ⟨settled, List.getElem?_set_self inside, stays⟩
    · exact ⟨other, (List.getElem?_set_ne same).trans there, .refl other⟩
  hosts := List.prefix_rfl

theorem Keeps.added (registry : Registry) (module : Registered) (positions : List (Name × Nat)) :
    registry.Keeps { registry with
      modules := registry.modules ++ [module], positions := positions } where
  nesting := rfl
  modules := by
    intro place other there
    obtain ⟨inside, _⟩ := List.getElem?_eq_some_iff.mp there
    exact ⟨other, (List.getElem?_append_left inside).trans there, .refl other⟩
  hosts := List.prefix_rfl

def tables (registry : Registry) : Tables :=
  ⟨registry.nesting, registry.sideBySide, registry.modules.map Registered.slot, registry.positions,
    registry.hosts⟩

theorem tables_added (registry : Registry) (module : ModuleDef) :
    ({ registry with
        modules := registry.modules ++ [{ definition := module }]
        positions := registry.positions ++ [(module.name, registry.modules.length)] } :
      Registry).tables =
      { registry.tables with
        modules := registry.tables.modules ++ [{ definition := module }]
        positions := registry.tables.positions ++
          [(module.name, registry.tables.modules.length)] } := by
  simp only [tables, List.map_append, List.length_map]
  rfl

end Registry

/-! ## Operations in place do what the registry does -/

namespace Linking

variable {α β : Type} {registry : Registry} {tables middle : Tables} {module : Registered}
  {modules : List Registered} {options : Validation.Options} {position : Nat}

open InPlace (ask on_bind_of_ok on_bind_of_error on_ask_bind_of_ok on_ask_bind_of_error)

/-- On the tables of this registry the program does what the run of the registry does, and what the
registry has is kept. -/
structure Performs (program : Linking α) (registry : Registry) (run : Registry.Run α) : Prop where
  on_eq : program.on registry.tables = (run.2.result, run.1.tables)
  keeps : registry.Keeps run.1

theorem Performs.of_on_eq {program other : Linking α} {run : Registry.Run α}
    (same : program.on registry.tables = other.on registry.tables)
    (performs : Performs other registry run) : Performs program registry run :=
  ⟨same.trans performs.on_eq, performs.keeps⟩

theorem Performs.ask {question : Tables → Except LinkFault α} {run : Traced LinkFault α}
    (answered : question registry.tables = run.result) :
    Performs (ask question) registry (registry, run) :=
  ⟨congrArg (·, registry.tables) answered, .refl registry⟩

theorem Performs.pure (registry : Registry) (value : α) :
    Performs (pure value) registry (registry.returning value) :=
  ⟨rfl, .refl registry⟩

theorem Performs.throw (registry : Registry) (fault : LinkFault) :
    Performs (throw fault : Linking α) registry (registry.failing fault) :=
  ⟨rfl, .refl registry⟩

theorem Performs.andThen {program : Linking α} {next : α → Linking β} {run : Registry.Run α}
    {later : Registry → α → Registry.Run β} (first : Performs program registry run)
    (rest : ∀ registry value, Performs (next value) registry (later registry value)) :
    Performs (program >>= next) registry (Registry.andThen run later) := by
  have ran := first.on_eq
  unfold Registry.andThen
  cases outcome : run.2.result with
  | error fault =>
      rw [outcome] at ran
      exact ⟨on_bind_of_error ran next, first.keeps⟩
  | ok value =>
      rw [outcome] at ran
      have second := rest run.1 value
      exact ⟨(on_bind_of_ok ran next).trans second.on_eq, first.keeps.trans second.keeps⟩

theorem Performs.returning {program : Linking α} {run : Registry.Run α}
    (first : Performs program registry run) (value : α → β) :
    Performs (program >>= fun found => Pure.pure (value found)) registry
      (Registry.andThen run fun next found => next.returning (value found)) :=
  first.andThen fun next found => .pure next (value found)

/-! ## Settling modules -/

theorem on_settle_of_ok {verdict : Verdict} {definition : ModuleDef}
    (reached : Verdict.ofResult (definition.outcome tables.nesting) = .ok verdict) :
    (settle position definition).on tables =
      (.ok (), { tables with
        modules := tables.modules.modify position fun slot => slot.put verdict }) :=
  on_ask_bind_of_ok tables (congrArg (Except.mapError LinkFault.check) reached) _

theorem on_settle_of_error {fault : Fault} {definition : ModuleDef}
    (failed : Verdict.ofResult (definition.outcome tables.nesting) = .error fault) :
    (settle position definition).on tables = (.error (.check fault), tables) :=
  on_ask_bind_of_error tables (congrArg (Except.mapError LinkFault.check) failed) _

theorem set_of_getElem? {slots : List Slot} {slot : Slot}
    (here : slots[position]? = some slot) : slots.set position slot = slots := by
  obtain ⟨inside, same⟩ := List.getElem?_eq_some_iff.mp here
  rw [← same, List.set_getElem_self]

/-- A pending module is settled in place. -/
theorem on_settle (same : options.nesting = tables.nesting) (pending : module.verdict = none)
    (here : tables.modules[position]? = some module.slot) :
    (settle position module.definition).on tables =
      (((module.settle options).2.result.map fun _ => ()).mapError .check,
        { tables with modules := tables.modules.set position (module.settle options).1.slot }) := by
  have outcome := Registered.result_validate_eq_outcome same module
  simp only [Registered.settle, pending, outcome]
  cases reached : Verdict.ofResult (module.outcome tables.nesting) with
  | error fault =>
      rw [on_settle_of_error reached]
      dsimp only
      rw [set_of_getElem? here]
      rfl
  | ok verdict =>
      rw [on_settle_of_ok reached, List.modify_eq_set_getElem?, here]
      dsimp only [Option.map_eq_map, Option.map_some, Option.getD_some]
      rw [Registered.slot_put pending]
      rfl

theorem pendingFrom_of_verdict {verdict : Verdict} (kept : module.verdict = some verdict)
    (start : Nat) (rest : List Slot) :
    Tables.pendingFrom start (module.slot :: rest) = Tables.pendingFrom (start + 1) rest := by
  rw [Tables.pendingFrom, Registered.isPending_slot, Registered.isPending, kept]
  rfl

theorem pendingFrom_of_none (pending : module.verdict = none) (start : Nat) (rest : List Slot) :
    Tables.pendingFrom start (module.slot :: rest) =
      (start, module.definition) :: Tables.pendingFrom (start + 1) rest := by
  rw [Tables.pendingFrom, Registered.isPending_slot, Registered.isPending, pending]
  rfl

/-- The loop over the pending modules; those before have been seen to. -/
theorem on_settleAll (same : options.nesting = tables.nesting) (modules : List Registered)
    (done : List Slot) :
    (settleAll (Tables.pendingFrom done.length (modules.map Registered.slot))).on
        { tables with modules := done ++ modules.map Registered.slot } =
      ((Registered.settleAll options modules).2.result.mapError .check,
        { tables with
          modules := done ++ (Registered.settleAll options modules).1.map Registered.slot }) := by
  induction modules generalizing done with
  | nil => rfl
  | cons module rest ih =>
      cases kept : module.verdict with
      | some verdict =>
          have settles : module.settle options = (module, pure verdict) := by
            rw [Registered.settle, kept]
          have later := ih (done ++ [module.slot])
          simp only [List.map_cons, pendingFrom_of_verdict kept, Registered.settleAll, settles]
          simpa using later
      | none =>
          have here : (done ++ module.slot :: rest.map Registered.slot)[done.length]? =
              some module.slot := by simp
          have first : (settle done.length module.definition).on
              { tables with modules := done ++ module.slot :: rest.map Registered.slot } = _ :=
            on_settle same kept here
          have written : (done ++ module.slot :: rest.map Registered.slot).set done.length
              (module.settle options).1.slot =
                done ++ (module.settle options).1.slot :: rest.map Registered.slot := by simp
          simp only [List.map_cons, pendingFrom_of_none kept, Registered.settleAll]
          change (settle done.length module.definition >>= fun _ => settleAll _).on _ = _
          cases outcome : (module.settle options).2.result with
          | error fault =>
              rw [outcome, written] at first
              exact on_bind_of_error first _
          | ok verdict =>
              rw [outcome, written] at first
              have later := ih (done ++ [(module.settle options).1.slot])
              rw [on_bind_of_ok first]
              simpa using later

theorem siblings_of_error {nesting : Nat} {fault : Fault} (same : options.nesting = nesting)
    (failed : Registered.settleTogether options modules = .error fault) (start : Nat) :
    siblings nesting (Tables.pendingFrom start (modules.map Registered.slot)) = .error fault := by
  induction modules generalizing start with
  | nil => cases failed
  | cons module rest ih =>
      rw [Registered.settleTogether] at failed
      cases kept : module.verdict with
      | some verdict =>
          rw [kept] at failed
          rw [List.map_cons, pendingFrom_of_verdict kept]
          rcases bind_eq_error_iff.mp failed with failed | ⟨others, _, failed⟩
          · exact ih failed (start + 1)
          · cases failed
      | none =>
          simp only [kept, Registered.result_validate_eq_outcome same] at failed
          rw [List.map_cons, pendingFrom_of_none kept]
          refine bind_eq_error_iff.mpr ?_
          rcases bind_eq_error_iff.mp failed with failed | ⟨verdict, reached, failed⟩
          · exact .inl failed
          · refine .inr ⟨verdict, reached, bind_eq_error_iff.mpr (.inl ?_)⟩
            rcases bind_eq_error_iff.mp failed with failed | ⟨others, _, failed⟩
            · exact ih failed (start + 1)
            · cases failed

/-- The verdicts found side by side are written to the modules that they are about. -/
theorem exists_siblings {together : List Registered × List Event}
    (same : options.nesting = tables.nesting)
    (success : Registered.settleTogether options modules = .ok together) (done : List Slot) :
    ∃ verdicts,
      siblings tables.nesting (Tables.pendingFrom done.length (modules.map Registered.slot)) =
        .ok verdicts ∧
      (recordAll ((Tables.pendingFrom done.length (modules.map Registered.slot)).zip verdicts)).on
          { tables with modules := done ++ modules.map Registered.slot } =
        (.ok (), { tables with modules := done ++ together.1.map Registered.slot }) := by
  induction modules generalizing done together with
  | nil =>
      cases success
      exact ⟨[], rfl, rfl⟩
  | cons module rest ih =>
      rw [Registered.settleTogether] at success
      cases kept : module.verdict with
      | some verdict =>
          rw [kept] at success
          obtain ⟨others, later, whole⟩ := bind_eq_ok_iff.mp success
          cases whole
          rw [List.map_cons, pendingFrom_of_verdict kept]
          obtain ⟨verdicts, found, written⟩ := ih later (done ++ [module.slot])
          refine ⟨verdicts, ?_, ?_⟩
          · simpa using found
          · simpa using written
      | none =>
          simp only [kept, Registered.result_validate_eq_outcome same] at success
          obtain ⟨verdict, reached, success⟩ := bind_eq_ok_iff.mp success
          obtain ⟨others, later, whole⟩ := bind_eq_ok_iff.mp success
          cases whole
          have written : (record done.length verdict).on
              { tables with modules := done ++ module.slot :: rest.map Registered.slot } =
                (.ok (), { tables with
                  modules := done ++ module.slot.put verdict :: rest.map Registered.slot }) := by
            change (Except.ok (), { tables with modules := List.modify _ _ _ }) = _
            simp [List.modify_eq_set_getElem?]
          obtain ⟨verdicts, found, writtenLater⟩ := ih later (done ++ [module.slot.put verdict])
          simp only [List.length_append, List.length_singleton, List.append_assoc,
            List.singleton_append] at found writtenLater
          rw [List.map_cons, pendingFrom_of_none kept]
          refine ⟨verdict :: verdicts, ?_, (on_bind_of_ok written _).trans ?_⟩
          · exact bind_eq_ok_iff.mpr ⟨verdict, reached, bind_eq_ok_iff.mpr ⟨verdicts, found, rfl⟩⟩
          · rw [List.map_cons, ← Registered.slot_put kept]
            exact writtenLater

theorem length_pendingFrom (start : Nat) (modules : List Registered) :
    (Tables.pendingFrom start (modules.map Registered.slot)).length =
      modules.countP Registered.isPending := by
  induction modules generalizing start with
  | nil => rfl
  | cons module rest ih =>
      cases kept : module.verdict with
      | some verdict =>
          have notPending : ¬ module.isPending = true := by simp [Registered.isPending, kept]
          rw [List.map_cons, pendingFrom_of_verdict kept, List.countP_cons_of_neg notPending, ih]
      | none =>
          have pending : module.isPending = true := by simp [Registered.isPending, kept]
          rw [List.map_cons, pendingFrom_of_none kept, List.countP_cons_of_pos pending,
            List.length_cons, ih]

/-! ## One operation -/

/-- What follows the check of a name finds the name free. -/
theorem Performs.requireFree {program : Linking α} {run : Registry.Run α} {name : Name}
    (performs : Performs program registry run) :
    Performs (requireFree name >>= fun _ => program) registry
      (if registry.isTaken name then registry.failing (.lookup ⟨name, .collision⟩) else run) := by
  have same : registry.tables.isTaken name = registry.isTaken name := rfl
  cases taken : registry.isTaken name with
  | true =>
      exact ⟨on_ask_bind_of_error registry.tables (by rw [same, taken]; rfl) _, .refl registry⟩
  | false =>
      exact performs.of_on_eq (on_ask_bind_of_ok registry.tables (by rw [same, taken]; rfl) _)

theorem performs_register (registry : Registry) (module : Option ModuleDef) :
    Performs (register module) registry (registry.register module) := by
  cases module with
  | none => exact .throw registry _
  | some module =>
      rw [register, Registry.register]
      split
      · exact .throw registry _
      · refine .requireFree ⟨?_, .added registry _ _⟩
        exact congrArg (Except.ok (), ·) (Registry.tables_added registry module).symm

theorem performs_registerHost (registry : Registry) (host : Host) :
    Performs (registerHost host) registry (registry.registerHost host) :=
  .requireFree ⟨rfl, .of_modules rfl rfl (List.prefix_append _ _)⟩

theorem on_settlePending (same : options.nesting = tables.nesting)
    (here : tables.modules[position]? = some module.slot) :
    (settlePending position module.slot).on tables =
      (((module.settle options).2.result.map fun _ => ()).mapError .check,
        { tables with modules := tables.modules.set position (module.settle options).1.slot }) := by
  rw [settlePending, Registered.isPending_slot, Registered.isPending]
  cases kept : module.verdict with
  | none => exact on_settle same kept here
  | some verdict =>
      rw [Registered.settle, kept, set_of_getElem? here]
      rfl

theorem find_tables {name : Name} (placed : registry.positions.lookup name = some position)
    (found : registry.modules[position]? = some module) :
    registry.tables.find name = .ok (position, module.slot) := by
  change (Option.bind (registry.positions.lookup name) _).elim _ _ = _
  simp [placed, Registry.tables, found]

/-- A module that has been found is settled where it stands. -/
theorem performs_found {name : Name} (placed : registry.positions.lookup name = some position)
    (found : registry.modules[position]? = some module) :
    Performs (moduleType name) registry
      (Registry.andThen
        ({ registry with
            modules := registry.modules.set position (module.settle registry.options).1 },
          (module.settle registry.options).2.mapError .check) fun next verdict =>
        (next, .ofExcept (verdict.mapError fun error => .check (.invalid error)))) := by
  have keeps := Registry.Keeps.set found (Registered.stays_settle registry.options module)
  have asked := find_tables placed found
  have here : registry.tables.modules[position]? = some module.slot := by
    simp [Registry.tables, found]
  have same : registry.options.nesting = registry.tables.nesting := rfl
  have settles := on_settlePending same here
  have written : registry.tables.modules.set position (module.settle registry.options).1.slot =
      (registry.modules.set position (module.settle registry.options).1).map Registered.slot :=
    List.map_set.symm
  rw [written] at settles
  cases reached : (module.settle registry.options).2.result with
  | error fault =>
      rw [reached] at settles
      have failed : ((module.settle registry.options).2.mapError LinkFault.check).result =
          .error (.check fault) := by
        rw [Traced.mapError, reached]
        rfl
      simp only [Registry.andThen, failed]
      exact ⟨(on_ask_bind_of_ok registry.tables asked _).trans (on_bind_of_error settles _), keeps⟩
  | ok verdict =>
      rw [reached] at settles
      have succeeded : ((module.settle registry.options).2.mapError LinkFault.check).result =
          .ok verdict := by
        rw [Traced.mapError, reached]
        rfl
      simp only [Registry.andThen, succeeded]
      obtain ⟨inside, _⟩ := List.getElem?_eq_some_iff.mp found
      let settled : Registry := { registry with
        modules := registry.modules.set position (module.settle registry.options).1 }
      have askedAgain : settled.tables.find name =
          .ok (position, (module.settle registry.options).1.slot) :=
        find_tables placed (List.getElem?_set_self inside)
      have told := Registered.told_slot (Registered.verdict_of_settle reached)
      refine ⟨(on_ask_bind_of_ok registry.tables asked _).trans ?_, keeps⟩
      refine (on_bind_of_ok settles _).trans ?_
      refine (on_ask_bind_of_ok settled.tables askedAgain _).trans ?_
      exact congrArg (·, _) told

theorem performs_moduleType (registry : Registry) (name : Name) :
    Performs (moduleType name) registry (registry.moduleType name) := by
  have fails (absent : registry.tables.find name = .error (.lookup ⟨name, .noModule⟩)) :
      Performs (moduleType name) registry (registry.failing (.lookup ⟨name, .noModule⟩)) :=
    ⟨on_ask_bind_of_error registry.tables absent _, .refl registry⟩
  unfold Registry.moduleType
  cases placed : registry.positions.lookup name with
  | none =>
      apply fails
      change (Option.bind (registry.positions.lookup name) _).elim _ _ = _
      rw [placed]
      rfl
  | some position =>
      dsimp only
      cases found : registry.modules[position]? with
      | none =>
          apply fails
          change (Option.bind (registry.positions.lookup name) _).elim _ _ = _
          simp [placed, Registry.tables, found]
      | some module =>
          exact performs_found placed found

/-- The errors are gathered from what is written. -/
theorem performs_conclude (registry : Registry) (validated : Nat) :
    Performs conclude registry (registry, registry.conclude validated) := by
  have errors : registry.tables.errors = registry.modules.filterMap Registered.error? := by
    rw [Tables.errors, Registry.tables, List.filterMap_map]
    rfl
  refine .ask ?_
  rw [errors]
  rfl

theorem performs_validateAll (registry : Registry) :
    Performs validateAll registry registry.validateAll := by
  have same : registry.options.nesting = registry.tables.nesting := rfl
  have pending : (Tables.pendingFrom 0 registry.tables.modules).length =
      registry.modules.countP Registered.isPending := length_pendingFrom 0 registry.modules
  have starts : validateAll.on registry.tables =
      (settleEach registry.sideBySide (Tables.pendingFrom 0 registry.tables.modules) >>= fun _ =>
        conclude).on registry.tables := rfl
  refine .of_on_eq starts ?_
  rw [settleEach, pending, Registry.validateAll]
  dsimp only
  split
  · cases together : Registered.settleTogether registry.options registry.modules with
    | error fault =>
        have checked := siblings_of_error same together 0
        have refused := congrArg (Except.mapError LinkFault.check) checked
        exact ⟨on_bind_of_error (on_ask_bind_of_error registry.tables refused _) _, .refl registry⟩
    | ok found =>
        obtain ⟨verdicts, checked, written⟩ := exists_siblings same together []
        have accepted := congrArg (Except.mapError LinkFault.check) checked
        refine Performs.andThen
          ⟨(on_ask_bind_of_ok registry.tables accepted _).trans written, ?_⟩ ?_
        · exact .of_forall₂ (Registered.stays_settleTogether together)
        · intro next _
          exact performs_conclude next _
  · refine Performs.andThen ⟨on_settleAll same registry.modules [], ?_⟩ ?_
    · exact .of_forall₂ (Registered.stays_settleAll registry.options registry.modules)
    · intro next _
      exact performs_conclude next _

theorem performs_hostInstance (registry : Registry) (name : Name) :
    Performs (hostInstance name) registry (registry.hostInstance name) := by
  unfold Registry.hostInstance
  have asked : registry.tables.findHost name =
      (registry.hosts.lookup name).elim (.error (.lookup ⟨name, .noHost⟩)) .ok := rfl
  cases found : registry.hosts.lookup name with
  | none =>
      rw [found] at asked
      exact .ask asked
  | some type =>
      rw [found] at asked
      exact .ask asked

theorem performs_buildHost (registry : Registry) (name : Name)
    (items : List (Name × HostItem)) :
    Performs (buildHost name items) registry (registry.buildHost name items) :=
  .ask rfl

theorem performs_argument (registry : Registry) (source : ArgumentSource) :
    Performs (argument source) registry (registry.argument source) := by
  cases source with
  | item name type => exact .pure registry _
  | registeredHost name host => exact (performs_hostInstance registry host).returning _
  | moduleType name module => exact (performs_moduleType registry module).returning _
  | host name items => exact (performs_buildHost registry name items).returning _

theorem performs_gather (registry : Registry) (sources : List ArgumentSource) :
    Performs (gather sources) registry (registry.gather sources) := by
  induction sources generalizing registry with
  | nil => exact .pure registry _
  | cons source rest ih =>
      refine (performs_argument registry source).andThen fun next first => ?_
      exact (ih next).returning _

theorem performs_instantiate (registry : Registry) (name : Name) (arguments : Arguments) :
    Performs (instantiate name arguments) registry (registry.instantiate name arguments) :=
  (performs_moduleType registry name).andThen fun _ _ => .ask rfl

theorem performs_step (registry : Registry) (op : Op) :
    Performs (perform op) registry (registry.step op) := by
  cases op with
  | attach channels => exact ⟨rfl, .of_modules rfl rfl List.prefix_rfl⟩
  | register module => exact (performs_register registry module).returning _
  | registerHost name items =>
      rw [perform, Registry.step]
      refine (performs_buildHost registry name items).andThen fun next host => ?_
      exact (performs_registerHost next host).returning _
  | validateAll => exact (performs_validateAll registry).returning _
  | moduleType name => exact (performs_moduleType registry name).returning _
  | hostInstance name => exact (performs_hostInstance registry name).returning _
  | instantiate name sources =>
      rw [perform, Registry.step]
      refine (performs_gather registry sources).andThen fun next arguments => ?_
      exact (performs_instantiate next name arguments).returning _

end Linking

end Linkage

import Mathlib.Data.List.Basic
import Linkage.Proofs.Instantiation
import Linkage.Registry
import Linkage.Validation.Listening

/-!
# Registries and catalogues

A catalogue keeps the registered modules in order and the host instances, and nothing else: it
checks a module anew whenever it is asked about it. A registry keeps the verdicts that it has found,
and finds them one by one, in order or side by side. `result_step_run_eq_catalogue` says that nobody
can tell the two apart by their answers, also after operations that failed.
-/

set_option autoImplicit false

namespace Linkage

def ModuleDef.outcome (nesting : Nat) (module : ModuleDef) : Except Fault ModuleType :=
  (module.validate { nesting := nesting, listening := false }).result

def Verdict.fault? : Except Fault ModuleType → Option Fault
  | .ok _ => none
  | .error (.invalid _) => none
  | .error fault => some fault

def Verdict.invalid? : Except Fault ModuleType → Option ValidationError
  | .error (.invalid error) => some error
  | _ => none

structure Catalogue where
  nesting : Nat
  modules : List ModuleDef := []
  hosts : List (Name × InstanceType) := []

namespace Catalogue

open Registry (Op Answer)

def isTaken (catalogue : Catalogue) (name : Name) : Bool :=
  catalogue.modules.any (fun module => module.name = name) || Entries.has catalogue.hosts name

def register (catalogue : Catalogue) : Option ModuleDef → Except LinkFault Catalogue
  | none => .error .noModuleGiven
  | some module =>
      if module.name.isEmpty then .error (.lookup ⟨module.name, .unnamed⟩)
      else if catalogue.isTaken module.name then .error (.lookup ⟨module.name, .collision⟩)
      else .ok { catalogue with modules := catalogue.modules ++ [module] }

def registerHost (catalogue : Catalogue) (host : Host) : Except LinkFault Catalogue :=
  if catalogue.isTaken host.name then .error (.lookup ⟨host.name, .collision⟩)
  else .ok { catalogue with hosts := catalogue.hosts ++ [(host.name, host.items)] }

def outcomes (catalogue : Catalogue) : List (Except Fault ModuleType) :=
  catalogue.modules.map (ModuleDef.outcome catalogue.nesting)

def errors (catalogue : Catalogue) : List ValidationError :=
  catalogue.outcomes.filterMap Verdict.invalid?

/-- Fails with the first fault that is no validation error, in order of registration, or else with
all validation errors together. -/
def validateAll (catalogue : Catalogue) : Except LinkFault Unit :=
  match catalogue.outcomes.findSome? Verdict.fault? with
  | some fault => .error (.check fault)
  | none =>
      if catalogue.errors.isEmpty then .ok () else .error (.rejected ⟨catalogue.errors⟩)

def moduleType (catalogue : Catalogue) (name : Name) : Except LinkFault ModuleType :=
  match catalogue.modules.find? fun module => module.name = name with
  | none => .error (.lookup ⟨name, .noModule⟩)
  | some module => (module.outcome catalogue.nesting).mapError .check

def hostInstance (catalogue : Catalogue) (name : Name) : Except LinkFault InstanceType :=
  match catalogue.hosts.lookup name with
  | none => .error (.lookup ⟨name, .noHost⟩)
  | some type => .ok type

def buildHost (name : Name) (items : List (Name × HostItem)) : Except LinkFault Host :=
  (Host.defineAll { name := name } items).mapError .host

def argument (catalogue : Catalogue) : ArgumentSource → Except LinkFault (Name × ItemType)
  | .item name type => .ok (name, type)
  | .registeredHost name host => do return (name, .inst (← catalogue.hostInstance host))
  | .moduleType name module => do return (name, .ofModule (← catalogue.moduleType module))
  | .host name items => do
      let host ← buildHost name items
      return (host.name, .inst host.items)

def instantiate (catalogue : Catalogue) (name : Name) (arguments : Arguments) :
    Except LinkFault InstanceType := do
  let type ← catalogue.moduleType name
  (type.instantiate name arguments).result.mapError .check

def answer (catalogue : Catalogue) : Op → Except LinkFault Answer
  | .attach _ => .ok .done
  | .register module => do
      (catalogue.register module).map fun _ => ()
      return .done
  | .registerHost name items => do
      let host ← buildHost name items
      return .instanceType (← (catalogue.registerHost host).map fun _ => host.items)
  | .validateAll => do
      catalogue.validateAll
      return .done
  | .moduleType name => do return .moduleType (← catalogue.moduleType name)
  | .hostInstance name => do return .instanceType (← catalogue.hostInstance name)
  | .instantiate name sources => do
      let arguments ← sources.mapM catalogue.argument
      return .instantiated arguments.length (← catalogue.instantiate name arguments)

def after (catalogue : Catalogue) : Op → Catalogue
  | .register module => (catalogue.register module).toOption.getD catalogue
  | .registerHost name items =>
      (do catalogue.registerHost (← buildHost name items)).toOption.getD catalogue
  | _ => catalogue

def run (catalogue : Catalogue) (ops : List Op) : Catalogue := ops.foldl after catalogue

end Catalogue

/-! ## Kept verdicts -/

namespace Registered

variable {nesting : Nat} {options : Validation.Options} {module settled : Registered}
  {modules rest others : List Registered} {fault : Fault} {verdict : Verdict}
  {result : Except Fault Unit}

def outcome (nesting : Nat) (module : Registered) : Except Fault ModuleType :=
  module.definition.outcome nesting

/-- A verdict that is kept is the one that a new check would reach. -/
def Honest (nesting : Nat) (module : Registered) : Prop :=
  ∀ verdict, module.verdict = some verdict → Verdict.ofResult (module.outcome nesting) = .ok verdict

theorem result_validate_eq_outcome (same : options.nesting = nesting) (module : Registered) :
    (module.definition.validate options).result = module.outcome nesting :=
  ModuleDef.result_validate same module.definition

theorem fault?_of_ofResult_ok {outcome : Except Fault ModuleType}
    (reached : Verdict.ofResult outcome = .ok verdict) : Verdict.fault? outcome = none := by
  cases outcome with
  | ok type => rfl
  | error fault =>
      cases fault with
      | invalid error => rfl
      | missingModule scope => cases reached
      | misuse found => cases reached

theorem fault?_of_ofResult_error {outcome : Except Fault ModuleType}
    (failed : Verdict.ofResult outcome = .error fault) : Verdict.fault? outcome = some fault := by
  cases outcome with
  | ok type => cases failed
  | error found =>
      cases found with
      | invalid error => cases failed
      | missingModule scope => cases failed; rfl
      | misuse found => cases failed; rfl

theorem error?_eq_invalid? {outcome : Except Fault ModuleType}
    (kept : settled.verdict = some verdict) (reached : Verdict.ofResult outcome = .ok verdict) :
    settled.error? = Verdict.invalid? outcome := by
  rw [error?, kept]
  cases outcome with
  | ok type => cases reached; rfl
  | error fault =>
      cases fault with
      | invalid error => cases reached; rfl
      | missingModule scope => cases reached
      | misuse found => cases reached

theorem result_settle (same : options.nesting = nesting) (honest : module.Honest nesting) :
    (module.settle options).2.result = Verdict.ofResult (module.outcome nesting) := by
  unfold settle
  split
  next verdict kept => exact (honest verdict kept).symm
  next pending =>
    simp only [result_validate_eq_outcome same]
    split
    next fault failed => exact failed.symm
    next verdict reached => exact reached.symm

theorem definition_settle (options : Validation.Options) (module : Registered) :
    (module.settle options).1.definition = module.definition := by
  unfold settle
  split
  · rfl
  · dsimp only
    split <;> rfl

theorem verdict_settle (same : options.nesting = nesting) (honest : module.Honest nesting)
    (reached : Verdict.ofResult (module.outcome nesting) = .ok verdict) :
    (module.settle options).1.verdict = some verdict := by
  unfold settle
  split
  next found kept =>
    have sameVerdict := (honest found kept).symm.trans reached
    rw [kept, Except.ok.inj sameVerdict]
  next pending =>
    simp only [result_validate_eq_outcome same]
    rw [reached]

theorem settle_of_fault (same : options.nesting = nesting)
    (failed : Verdict.ofResult (module.outcome nesting) = .error fault) :
    (module.settle options).1 = module := by
  unfold settle
  split
  · rfl
  next pending =>
    simp only [result_validate_eq_outcome same]
    rw [failed]

theorem Honest.of_verdict (same : settled.definition = module.definition)
    (kept : settled.verdict = some verdict)
    (reached : Verdict.ofResult (module.outcome nesting) = .ok verdict) :
    settled.Honest nesting := by
  intro other found
  have sameVerdict := Option.some.inj (kept.symm.trans found)
  rw [outcome, same, ← sameVerdict]
  exact reached

theorem Honest.settle (same : options.nesting = nesting) (honest : module.Honest nesting) :
    (module.settle options).1.Honest nesting := by
  cases reached : Verdict.ofResult (module.outcome nesting) with
  | error fault =>
      rw [settle_of_fault same reached]
      exact honest
  | ok verdict =>
      have verdict := verdict_settle same honest reached
      exact .of_verdict (definition_settle options module) verdict reached

/-- What a way of settling modules leaves: the same modules with honest verdicts, and either the
first fault that is no verdict, or verdicts on all of them. -/
structure Sweep (nesting : Nat) (modules settled : List Registered) (result : Except Fault Unit) :
    Prop where
  definitions : settled.map definition = modules.map definition
  honest : ∀ module ∈ settled, module.Honest nesting
  faulty : ∀ fault, result = .error fault →
    (modules.map (outcome nesting)).findSome? Verdict.fault? = some fault
  complete : result = .ok () →
    (modules.map (outcome nesting)).findSome? Verdict.fault? = none ∧
      settled.filterMap error? = (modules.map (outcome nesting)).filterMap Verdict.invalid?

theorem Sweep.nil : Sweep nesting [] [] (.ok ()) where
  definitions := rfl
  honest := by simp
  faulty := by simp
  complete := by simp

theorem Sweep.cons (same : settled.definition = module.definition)
    (kept : settled.verdict = some verdict)
    (reached : Verdict.ofResult (module.outcome nesting) = .ok verdict)
    (sweep : Sweep nesting rest others result) :
    Sweep nesting (module :: rest) (settled :: others) result where
  definitions := by simp [same, sweep.definitions]
  honest := by
    have first : settled.Honest nesting := .of_verdict same kept reached
    simpa using ⟨first, sweep.honest⟩
  faulty := by
    intro fault failed
    simpa [fault?_of_ofResult_ok reached] using sweep.faulty fault failed
  complete := by
    intro done
    obtain ⟨noFault, errors⟩ := sweep.complete done
    refine ⟨by simpa [fault?_of_ofResult_ok reached] using noFault, ?_⟩
    simp [List.filterMap_cons, error?_eq_invalid? kept reached, errors]

theorem Sweep.skip (sweep : Sweep nesting rest rest (.error fault))
    (honest : module.Honest nesting)
    (reached : Verdict.ofResult (module.outcome nesting) = .ok verdict) :
    Sweep nesting (module :: rest) (module :: rest) (.error fault) where
  definitions := rfl
  honest := by simpa using ⟨honest, sweep.honest⟩
  faulty := by
    intro other same
    simpa [fault?_of_ofResult_ok reached] using sweep.faulty other same
  complete := by simp

theorem Sweep.of_fault (honest : ∀ other ∈ module :: rest, other.Honest nesting)
    (failed : Verdict.ofResult (module.outcome nesting) = .error fault) :
    Sweep nesting (module :: rest) (module :: rest) (.error fault) where
  definitions := rfl
  honest := honest
  faulty := by
    intro other same
    rw [← Except.error.inj same]
    simp [fault?_of_ofResult_error failed]
  complete := by simp

theorem sweep_settleAll (same : options.nesting = nesting)
    (honest : ∀ module ∈ modules, module.Honest nesting) :
    Sweep nesting modules (settleAll options modules).1 (settleAll options modules).2.result := by
  induction modules with
  | nil => exact .nil
  | cons module rest ih =>
      have honestHere := honest module (by simp)
      have honestRest : ∀ other ∈ rest, other.Honest nesting := fun other inside =>
        honest other (by simp [inside])
      have settles := result_settle same honestHere
      cases reached : Verdict.ofResult (module.outcome nesting) with
      | error fault =>
          rw [reached] at settles
          simp only [settleAll, settles, settle_of_fault same reached]
          exact .of_fault honest reached
      | ok verdict =>
          rw [reached] at settles
          simp only [settleAll, settles]
          exact .cons (definition_settle options module) (verdict_settle same honestHere reached)
            reached (ih honestRest)

theorem settleTogether_cons_of_fault (same : options.nesting = nesting)
    (honest : module.Honest nesting)
    (failed : Verdict.ofResult (module.outcome nesting) = .error fault) :
    settleTogether options (module :: rest) = .error fault := by
  have pending : module.verdict = none := by
    cases kept : module.verdict with
    | none => rfl
    | some verdict => simp [honest verdict kept] at failed
  rw [settleTogether, pending]
  simp only [result_validate_eq_outcome same, failed]
  rfl

theorem settleTogether_cons_of_verdict (same : options.nesting = nesting)
    (honest : module.Honest nesting)
    (reached : Verdict.ofResult (module.outcome nesting) = .ok verdict) :
    ∃ events : List Event, settleTogether options (module :: rest) =
      (settleTogether options rest).map fun later =>
        ({ module with verdict := some verdict } :: later.1, events ++ later.2) := by
  rw [settleTogether]
  cases kept : module.verdict with
  | none =>
      refine ⟨[module.verdictEvent verdict], ?_⟩
      simp only [result_validate_eq_outcome same, reached]
      cases settleTogether options rest <;> rfl
  | some found =>
      have sameVerdict : found = verdict := by
        simpa [reached] using (honest found kept).symm
      have unchanged : module = { module with verdict := some verdict } := by
        rw [← sameVerdict, ← kept]
      refine ⟨[], ?_⟩
      dsimp only
      rw [← unchanged]
      cases settleTogether options rest <;> rfl

theorem sweep_settleTogether (same : options.nesting = nesting)
    (honest : ∀ module ∈ modules, module.Honest nesting) :
    (∀ fault, settleTogether options modules = .error fault →
        Sweep nesting modules modules (.error fault)) ∧
      ∀ together, settleTogether options modules = .ok together →
        Sweep nesting modules together.1 (.ok ()) := by
  induction modules with
  | nil =>
      refine ⟨by simp [settleTogether], ?_⟩
      intro together success
      cases success
      exact .nil
  | cons module rest ih =>
      have honestHere := honest module (by simp)
      have honestRest : ∀ other ∈ rest, other.Honest nesting := fun other inside =>
        honest other (by simp [inside])
      obtain ⟨faulty, complete⟩ := ih honestRest
      cases reached : Verdict.ofResult (module.outcome nesting) with
      | error found =>
          rw [settleTogether_cons_of_fault same honestHere reached]
          refine ⟨?_, by simp⟩
          intro fault failed
          cases failed
          exact .of_fault honest reached
      | ok verdict =>
          obtain ⟨events, step⟩ := settleTogether_cons_of_verdict same honestHere reached
          rw [step]
          cases later : settleTogether options rest with
          | error found =>
              refine ⟨?_, by simp [Except.map]⟩
              intro fault failed
              cases failed
              exact (faulty found later).skip honestHere reached
          | ok others =>
              refine ⟨by simp [Except.map], ?_⟩
              intro together success
              cases success
              exact .cons rfl rfl reached (complete others later)

end Registered

/-! ## What a registry stands for -/

namespace Registry

variable {α β : Type} {registry : Registry} {kept : Catalogue}

def catalogue (registry : Registry) : Catalogue :=
  ⟨registry.nesting, registry.modules.map Registered.definition, registry.hosts⟩

/-- The verdicts that are kept are honest, and the position of a name is that of the first module
with this name. -/
structure Faithful (registry : Registry) : Prop where
  honest : ∀ module ∈ registry.modules, module.Honest registry.nesting
  positions : ∀ name, registry.positions.lookup name =
    registry.catalogue.modules.findIdx? fun module => module.name = name

structure Answers (kept : Catalogue) (run : Run α) (expected : Except LinkFault α) : Prop where
  faithful : run.1.Faithful
  catalogue_eq : run.1.catalogue = kept
  result_eq : run.2.result = expected

theorem Faithful.returns (faithful : registry.Faithful) (same : registry.catalogue = kept)
    (value : α) : Answers kept (registry.returning value) (.ok value) :=
  ⟨faithful, same, rfl⟩

theorem Faithful.fails (faithful : registry.Faithful) (fault : LinkFault) :
    Answers registry.catalogue (registry.failing fault : Run α) (.error fault) :=
  ⟨faithful, rfl, rfl⟩

theorem Answers.andThen {run : Run α} {expected : Except LinkFault α}
    {next : Registry → α → Run β} {later : α → Except LinkFault β}
    (first : Answers kept run expected)
    (rest : ∀ registry value, registry.Faithful → registry.catalogue = kept →
      Answers kept (next registry value) (later value)) :
    Answers kept (Registry.andThen run next) (expected >>= later) := by
  rw [← first.result_eq]
  unfold Registry.andThen
  cases run.2.result with
  | error fault => exact ⟨first.faithful, first.catalogue_eq, rfl⟩
  | ok value =>
      have second := rest run.1 value first.faithful first.catalogue_eq
      exact ⟨second.faithful, second.catalogue_eq, second.result_eq⟩

theorem Faithful.of_definitions {modules : List Registered} (faithful : registry.Faithful)
    (same : modules.map Registered.definition = registry.modules.map Registered.definition)
    (honest : ∀ module ∈ modules, module.Honest registry.nesting) :
    ({ registry with modules := modules } : Registry).Faithful ∧
      ({ registry with modules := modules } : Registry).catalogue = registry.catalogue := by
  have unchanged : ({ registry with modules := modules } : Registry).catalogue =
      registry.catalogue := by
    simp only [catalogue, same]
  refine ⟨⟨honest, ?_⟩, unchanged⟩
  intro name
  rw [unchanged]
  exact faithful.positions name

theorem Faithful.isTaken_eq (faithful : registry.Faithful) (name : Name) :
    registry.isTaken name = registry.catalogue.isTaken name := by
  unfold isTaken Catalogue.isTaken
  rw [Entries.has, faithful.positions, List.findIdx?_isSome]
  rfl

/-! ## Operations that only ask -/

theorem Faithful.answers_hostInstance (faithful : registry.Faithful) (name : Name) :
    Answers registry.catalogue (registry.hostInstance name)
      (registry.catalogue.hostInstance name) := by
  unfold hostInstance Catalogue.hostInstance
  have hosts : registry.catalogue.hosts = registry.hosts := rfl
  rw [hosts]
  cases registry.hosts.lookup name with
  | none => exact faithful.fails _
  | some type => exact faithful.returns rfl type

theorem map_definition_set {modules : List Registered} {module settled : Registered}
    {position : Nat} (found : modules[position]? = some module)
    (same : settled.definition = module.definition) :
    (modules.set position settled).map Registered.definition =
      modules.map Registered.definition := by
  obtain ⟨inside, here⟩ := List.getElem?_eq_some_iff.mp found
  have insideMap : position < (modules.map Registered.definition).length := by simpa using inside
  have unchanged : settled.definition = (modules.map Registered.definition)[position] := by
    rw [List.getElem_map, here, same]
  rw [List.map_set, unchanged, List.set_getElem_self]

theorem ofResult_mapError (outcome : Except Fault ModuleType) :
    ((Verdict.ofResult outcome).mapError LinkFault.check >>= fun verdict =>
      verdict.mapError fun error => .check (.invalid error)) = outcome.mapError .check := by
  cases outcome with
  | ok type => rfl
  | error fault => cases fault <;> rfl

theorem Faithful.answers_moduleType (faithful : registry.Faithful) (name : Name) :
    Answers registry.catalogue (registry.moduleType name) (registry.catalogue.moduleType name) := by
  unfold moduleType Catalogue.moduleType
  rw [List.find?_eq_bind_findIdx?_getElem?, ← faithful.positions]
  cases registry.positions.lookup name with
  | none => exact faithful.fails _
  | some position =>
      have definitions : registry.catalogue.modules[position]? =
          (registry.modules[position]?).map Registered.definition := by
        simp [catalogue]
      simp only [Option.bind_some, definitions]
      cases found : registry.modules[position]? with
      | none => exact faithful.fails _
      | some module =>
          have options : registry.options.nesting = registry.nesting := rfl
          have honest := faithful.honest module (List.mem_of_getElem? found)
          have same := Registered.definition_settle registry.options module
          have honestAfter : ∀ other ∈ registry.modules.set position
              (module.settle registry.options).1, other.Honest registry.nesting := by
            intro other inside
            rcases List.mem_or_eq_of_mem_set inside with before | settled
            · exact faithful.honest other before
            · exact settled ▸ honest.settle options
          obtain ⟨faithfulAfter, unchanged⟩ :=
            faithful.of_definitions (map_definition_set found same) honestAfter
          have result := Registered.result_settle options honest
          have asked : Answers registry.catalogue
              ({ registry with
                  modules := registry.modules.set position (module.settle registry.options).1 },
                (module.settle registry.options).2.mapError LinkFault.check)
              ((Verdict.ofResult (module.outcome registry.nesting)).mapError .check) :=
            ⟨faithfulAfter, unchanged, by rw [Traced.mapError, result]⟩
          have stated : (module.definition.outcome registry.nesting).mapError LinkFault.check =
              (Verdict.ofResult (module.outcome registry.nesting)).mapError .check >>=
                fun verdict => verdict.mapError fun error => .check (.invalid error) :=
            (ofResult_mapError _).symm
          change Answers _ _ ((module.definition.outcome registry.nesting).mapError _)
          rw [stated]
          exact asked.andThen fun next verdict faithful same => ⟨faithful, same, rfl⟩

theorem Faithful.answers_buildHost (faithful : registry.Faithful) (name : Name)
    (items : List (Name × HostItem)) :
    Answers registry.catalogue (registry.buildHost name items) (Catalogue.buildHost name items) :=
  ⟨faithful, rfl, rfl⟩

theorem Faithful.answers_argument (faithful : registry.Faithful) (source : ArgumentSource) :
    Answers registry.catalogue (registry.argument source) (registry.catalogue.argument source) := by
  cases source with
  | item name type => exact faithful.returns rfl (name, type)
  | registeredHost name host =>
      rw [argument, Catalogue.argument]
      refine (faithful.answers_hostInstance host).andThen ?_
      intro next type faithful same
      exact faithful.returns same _
  | moduleType name module =>
      rw [argument, Catalogue.argument]
      refine (faithful.answers_moduleType module).andThen ?_
      intro next type faithful same
      exact faithful.returns same _
  | host name items =>
      rw [argument, Catalogue.argument]
      refine (faithful.answers_buildHost name items).andThen ?_
      intro next host faithful same
      exact faithful.returns same _

theorem Faithful.answers_gather (faithful : registry.Faithful) (sources : List ArgumentSource) :
    Answers registry.catalogue (registry.gather sources)
      (sources.mapM registry.catalogue.argument) := by
  induction sources generalizing registry with
  | nil => exact faithful.returns rfl []
  | cons source rest ih =>
      rw [gather, List.mapM_cons]
      refine (faithful.answers_argument source).andThen ?_
      intro next first faithfulNext same
      rw [← same]
      refine (ih faithfulNext).andThen ?_
      intro last others faithfulLast sameLast
      exact faithfulLast.returns sameLast (first :: others)

theorem Faithful.answers_instantiate (faithful : registry.Faithful) (name : Name)
    (arguments : Arguments) :
    Answers registry.catalogue (registry.instantiate name arguments)
      (registry.catalogue.instantiate name arguments) := by
  refine (faithful.answers_moduleType name).andThen ?_
  intro next type faithfulNext same
  exact ⟨faithfulNext, same, rfl⟩

/-! ## Validating all modules -/

/-- Whichever way the modules were settled, the conclusion is that of the catalogue. -/
theorem Faithful.concludes {modules : List Registered} {result : Except Fault Unit}
    (faithful : registry.Faithful)
    (sweep : Registered.Sweep registry.nesting registry.modules modules result)
    (trace : Trace) (validated : Nat) :
    Answers registry.catalogue
      (andThen ({ registry with modules := modules }, ⟨trace, result.mapError .check⟩)
        fun settled _ => (settled, settled.conclude validated))
      registry.catalogue.validateAll := by
  obtain ⟨faithfulAfter, unchanged⟩ := faithful.of_definitions sweep.definitions sweep.honest
  have outcomes : registry.catalogue.outcomes =
      registry.modules.map (Registered.outcome registry.nesting) := by
    simp [Catalogue.outcomes, catalogue, Registered.outcome, Function.comp_def]
  rw [Catalogue.validateAll, Catalogue.errors, outcomes]
  cases result with
  | error fault =>
      rw [sweep.faulty fault rfl]
      exact ⟨faithfulAfter, unchanged, rfl⟩
  | ok done =>
      obtain ⟨noFault, errors⟩ := sweep.complete rfl
      rw [noFault, ← errors]
      exact ⟨faithfulAfter, unchanged, rfl⟩

theorem Faithful.answers_validateAll (faithful : registry.Faithful) :
    Answers registry.catalogue registry.validateAll registry.catalogue.validateAll := by
  have options : registry.options.nesting = registry.nesting := rfl
  unfold validateAll
  dsimp only
  split
  · obtain ⟨faulty, complete⟩ := Registered.sweep_settleTogether options faithful.honest
    split
    next fault failed => exact faithful.concludes (faulty fault failed) .empty 0
    next modules events success => exact faithful.concludes (complete _ success) _ _
  · exact faithful.concludes (Registered.sweep_settleAll options faithful.honest) _ _

/-! ## Steps and runs -/

theorem Faithful.registered (faithful : registry.Faithful) (module : ModuleDef) :
    ({ registry with
        modules := registry.modules ++ [{ definition := module }]
        positions := registry.positions ++ [(module.name, registry.modules.length)] } :
      Registry).Faithful := by
  refine ⟨?_, ?_⟩
  · intro other inside
    rcases List.mem_append.mp inside with before | new
    · exact faithful.honest other before
    · intro verdict found
      simp [List.mem_singleton.mp new] at found
  · intro name
    have before := faithful.positions name
    simp only [catalogue] at before
    simp only [catalogue, List.map_append, List.findIdx?_append, ← before, List.lookup_append]
    congr 1
    by_cases same : module.name = name
    · simp [same]
    · simp [same, Ne.symm same, Entries.lookup_entry]

theorem Faithful.answers_register (faithful : registry.Faithful) (module : Option ModuleDef) :
    Answers ((registry.catalogue.register module).toOption.getD registry.catalogue)
      (registry.register module) ((registry.catalogue.register module).map fun _ => ()) := by
  cases module with
  | none => exact faithful.fails _
  | some module =>
      simp only [register, Catalogue.register, faithful.isTaken_eq]
      split
      · exact faithful.fails _
      · split
        · exact faithful.fails _
        · exact ⟨faithful.registered module, by simp [catalogue, Except.toOption], rfl⟩

theorem Faithful.answers_registerHost (faithful : registry.Faithful) (host : Host) :
    Answers ((registry.catalogue.registerHost host).toOption.getD registry.catalogue)
      (registry.registerHost host)
      ((registry.catalogue.registerHost host).map fun _ => host.items) := by
  simp only [registerHost, Catalogue.registerHost, faithful.isTaken_eq]
  split
  · exact faithful.fails _
  · exact ⟨⟨faithful.honest, faithful.positions⟩, rfl, rfl⟩

theorem Faithful.answers_step (faithful : registry.Faithful) (op : Op) :
    Answers (registry.catalogue.after op) (registry.step op) (registry.catalogue.answer op) := by
  cases op with
  | attach channels => exact ⟨⟨faithful.honest, faithful.positions⟩, rfl, rfl⟩
  | register module =>
      rw [step, Catalogue.answer, Catalogue.after]
      refine (faithful.answers_register module).andThen ?_
      intro next done faithful same
      exact faithful.returns same _
  | registerHost name items =>
      have built : registry.buildHost name items =
        (registry, .ofExcept (Catalogue.buildHost name items)) := rfl
      rw [step, Catalogue.answer, Catalogue.after, built]
      cases Catalogue.buildHost name items with
      | error fault => exact faithful.fails fault
      | ok host =>
          have registers := (faithful.answers_registerHost host).andThen
            fun next type faithful same => faithful.returns same (Answer.instanceType type)
          exact registers
  | validateAll =>
      rw [step, Catalogue.answer]
      refine faithful.answers_validateAll.andThen ?_
      intro next done faithful same
      exact faithful.returns same _
  | moduleType name =>
      rw [step, Catalogue.answer]
      refine (faithful.answers_moduleType name).andThen ?_
      intro next type faithful same
      exact faithful.returns same _
  | hostInstance name =>
      rw [step, Catalogue.answer]
      refine (faithful.answers_hostInstance name).andThen ?_
      intro next type faithful same
      exact faithful.returns same _
  | instantiate name sources =>
      rw [step, Catalogue.answer]
      refine (faithful.answers_gather sources).andThen ?_
      intro next arguments faithfulNext sameNext
      have instantiates := faithfulNext.answers_instantiate name arguments
      rw [sameNext] at instantiates
      refine instantiates.andThen ?_
      intro last type faithfulLast sameLast
      exact faithfulLast.returns sameLast _

theorem Faithful.run (faithful : registry.Faithful) (ops : List Op) :
    (registry.run ops).Faithful ∧ (registry.run ops).catalogue = registry.catalogue.run ops := by
  induction ops generalizing registry with
  | nil => exact ⟨faithful, rfl⟩
  | cons op rest ih =>
      have step := faithful.answers_step op
      obtain ⟨faithfulAfter, same⟩ := ih step.faithful
      rw [step.catalogue_eq] at same
      exact ⟨faithfulAfter, same⟩

theorem Faithful.empty (nesting : Nat) (sideBySide : Bool) (channels : Option Channels) :
    Faithful { nesting := nesting, sideBySide := sideBySide, channels := channels } where
  honest := by simp
  positions := by simp [catalogue]

/-- **Verdicts are kept without a trace.** After any operations, failed ones among them, every
operation on a registry answers what a catalogue answers that has seen the same operations: however
modules are settled, and whatever is logged. -/
theorem result_step_run_eq_catalogue (nesting : Nat) (sideBySide : Bool)
    (channels : Option Channels) (ops : List Op) (op : Op) :
    ((run { nesting := nesting, sideBySide := sideBySide, channels := channels } ops).step
      op).2.result = (Catalogue.run { nesting := nesting } ops).answer op := by
  obtain ⟨faithful, same⟩ := (Faithful.empty nesting sideBySide channels).run ops
  have answers := (faithful.answers_step op).result_eq
  rw [same] at answers
  exact answers

end Registry

end Linkage

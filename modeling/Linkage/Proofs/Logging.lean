import Linkage.Proofs.InPlace
import Linkage.Proofs.Outcome
import Linkage.Registry
import Linkage.Validation.Listening

/-!
# Logs

A log shows what happens and has no part in it. The results of checks, of instantiations and of all
operations of a registry are the same whatever log is attached or whether there is one
(`Registry.Parallels`), and what a log writes are the lines of the log of everything that belong to
the channels it shows (`Transparent`, `Overheard`). Instantiation does more if there is a log: it
goes through the arguments once again. `Telling` has it with its writes to the log where it makes
them, and `Told` says that they come to the events of the instantiation.
-/

set_option autoImplicit false

namespace Linkage

/-! ## Writing a log -/

namespace Channels

def all : Channels := ⟨true, true⟩

def write (channels : Channels) (text : Text) : Event → Text
  | .scope depth path event =>
      if channels.validating then text ++ (Event.scope depth path event).line else text
  | .link event => if channels.linking then text ++ (Event.link event).line else text

theorem write_eq (channels : Channels) (text : Text) (event : Event) :
    channels.write text event = text ++ channels.log [event] := by
  cases event with
  | scope depth path event => cases shown : channels.validating <;> simp [write, log, shows, shown]
  | link event => cases shown : channels.linking <;> simp [write, log, shows, shown]

theorem log_append (channels : Channels) (first second : List Event) :
    channels.log (first ++ second) = channels.log first ++ channels.log second := by
  rw [log, List.filter_append, List.flatMap_append]
  rfl

/-- A log that is written event by event is the log of the events. -/
theorem foldl_write (channels : Channels) (text : Text) (events : List Event) :
    events.foldl channels.write text = text ++ channels.log events := by
  induction events generalizing text with
  | nil => exact (List.append_nil text).symm
  | cons event rest ih =>
      rw [List.foldl_cons, ih, write_eq, List.append_assoc, ← log_append]
      rfl

theorem log_all (events : List Event) : all.log events = events.flatMap Event.line := by
  have everything : ∀ event ∈ events, all.shows event = true := by
    intro event _
    cases event <;> rfl
  rw [log, List.filter_eq_self.mpr everything]

/-- Writes an event to the log that is attached, if there is one. -/
def hear (attached : Option Channels) (text : Text) (event : Event) : Text :=
  attached.elim text fun channels => channels.write text event

theorem foldl_hear_some (channels : Channels) (text : Text) (events : List Event) :
    events.foldl (hear (some channels)) text =
      text ++ (events.filter channels.shows).flatMap Event.line :=
  foldl_write channels text events

theorem foldl_hear_none (text : Text) (events : List Event) :
    events.foldl (hear none) text = text := by
  induction events with
  | nil => rfl
  | cons event rest ih => exact ih

end Channels

/-- A computation to which a log may be attached has the same result with every log and without one.
The text of a log are the lines, in order, that the log of everything has of the channels shown. -/
structure Transparent {ε α : Type} (run : Option Channels → Traced ε α) : Prop where
  result : ∀ attached, (run attached).result = (run none).result
  text : ∀ channels, (run (some channels)).events.foldl channels.write [] =
    ((run (some .all)).events.filter channels.shows).flatMap Event.line
  whole : (run (some .all)).events.foldl Channels.all.write [] =
    (run (some .all)).events.flatMap Event.line

/-- It is enough that the events are the same with every log. -/
theorem Transparent.of_events {ε α : Type} {run : Option Channels → Traced ε α}
    (result : ∀ attached, (run attached).result = (run none).result)
    (events : ∀ channels, (run (some channels)).events = (run (some .all)).events) :
    Transparent run where
  result := result
  text channels := by
    rw [events, Channels.foldl_write]
    rfl
  whole := by
    rw [Channels.foldl_write, Channels.log_all]
    rfl

/-! ## Instantiation -/

/-- Instantiation without events: the names are checked, then the imports up to the first that is
not supplied. Arguments that are not imported are not looked at. -/
def ModuleType.supply (context : Name) (type : ModuleType) (arguments : Arguments) :
    Except Fault InstanceType := do
  Instantiation.checkNames context arguments
  ((Entries.sorted type.imports).findSome? (Instantiation.failure? context arguments)).elim
    (.ok type.exports) .error

theorem ModuleType.result_instantiate (context : Name) (type : ModuleType)
    (arguments : Arguments) :
    (type.instantiate context arguments).result = type.supply context arguments := by
  simp only [instantiate, supply, Traced.result_bind, Traced.result_emit, Traced.result_ofExcept,
    Instantiation.result_checkImports]
  cases Instantiation.checkNames context arguments with
  | error fault => rfl
  | ok done =>
      cases (Entries.sorted type.imports).findSome? (Instantiation.failure? context arguments) with
      | none => rfl
      | some fault => rfl

abbrev Telling (α : Type) := InPlace Fault Text α

namespace Telling

open InPlace (ask)

def tell (attached : Option Channels) (event : Event) : Telling Unit :=
  modify fun text => Channels.hear attached text event

def checkImports (attached : Option Channels) (context : Name) (arguments : Arguments) :
    List (Name × ItemType) → Telling Unit
  | [] => return ()
  | (name, wanted) :: rest => do
      let argument ← ask fun _ => Instantiation.checkImport context arguments name wanted
      tell attached (.link (.matched name argument wanted))
      checkImports attached context arguments rest

def tellIgnored (attached : Option Channels) (imports : InstanceType) : Arguments → Telling Unit
  | [] => return ()
  | argument :: rest =>
      if Entries.has imports argument.1 then tellIgnored attached imports rest
      else do
        tell attached (.link (.ignored argument.1))
        tellIgnored attached imports rest

/-- The arguments that are not imported are looked for only if there is a log. -/
def conclude (attached : Option Channels) (context : Name) (type : ModuleType)
    (arguments : Arguments) : Telling InstanceType :=
  if attached.isSome then do
    tellIgnored attached type.imports arguments
    tell attached (.link (.instantiated context type.exports))
    return type.exports
  else return type.exports

/-- Instantiation with its writes to a log where it makes them. -/
def instantiate (attached : Option Channels) (context : Name) (type : ModuleType)
    (arguments : Arguments) : Telling InstanceType := do
  tell attached (.link (.instantiating context type))
  ask fun _ => Instantiation.checkNames context arguments
  checkImports attached context arguments (Entries.sorted type.imports)
  conclude attached context type arguments

end Telling

/-- The program has the result of a traced computation, and its events are written to the log. -/
def Tells {α : Type} (attached : Option Channels) (program : Telling α) (run : Traced Fault α) :
    Prop :=
  ∀ text, program.on text = (run.result, run.events.foldl (Channels.hear attached) text)

namespace Tells

variable {α β : Type} {attached : Option Channels}

theorem pure (value : α) : Tells attached (pure value) (pure value) := fun _ => rfl

theorem ask (result : Except Fault α) :
    Tells attached (InPlace.ask fun _ => result) (.ofExcept result) :=
  fun _ => rfl

theorem tell (event : Event) : Tells attached (Telling.tell attached event) (.emit event) :=
  fun _ => rfl

theorem bind {program : Telling α} {next : α → Telling β} {run : Traced Fault α}
    {later : α → Traced Fault β} (first : Tells attached program run)
    (rest : ∀ value, Tells attached (next value) (later value)) :
    Tells attached (program >>= next) (run >>= later) := by
  intro text
  have ran := first text
  rw [Traced.events_bind, Traced.result_bind, List.foldl_append]
  cases outcome : run.result with
  | error fault =>
      rw [outcome] at ran
      exact InPlace.on_bind_of_error ran next
  | ok value =>
      rw [outcome] at ran
      exact (InPlace.on_bind_of_ok ran next).trans (rest value _)

theorem checkImports (context : Name) (arguments : Arguments) (imports : List (Name × ItemType)) :
    Tells attached (Telling.checkImports attached context arguments imports)
      (Instantiation.checkImports context arguments imports) := by
  induction imports with
  | nil => exact .pure ()
  | cons wanted rest ih =>
      apply (ask _).bind
      intro argument
      exact (tell _).bind fun _ => ih

theorem tellIgnored (imports : InstanceType) (arguments : Arguments) :
    Tells attached (Telling.tellIgnored attached imports arguments)
      ⟨.ofList (Instantiation.ignored imports arguments), .ok ()⟩ := by
  intro text
  change _ = (Except.ok (), (Trace.toList _).foldl _ text)
  rw [Trace.toList_ofList]
  induction arguments generalizing text with
  | nil => rfl
  | cons argument rest ih =>
      rw [Telling.tellIgnored, Instantiation.ignored, List.filter_cons]
      cases Entries.has imports argument.1 with
      | true => exact ih text
      | false => exact (InPlace.on_bind_of_ok (tell _ text) _).trans (ih _)

theorem conclude (context : Name) (type : ModuleType) (arguments : Arguments) :
    Tells attached (Telling.conclude attached context type arguments)
      (⟨.ofList (Instantiation.ignored type.imports arguments), .ok ()⟩ >>= fun _ : Unit =>
        .emit (.link (.instantiated context type.exports)) >>= fun _ =>
          Pure.pure type.exports) := by
  cases attached with
  | none =>
      intro text
      rw [Channels.foldl_hear_none]
      rfl
  | some channels => exact (tellIgnored _ _).bind fun _ => (tell _).bind fun _ => .pure _

theorem instantiate (context : Name) (type : ModuleType) (arguments : Arguments) :
    Tells attached (Telling.instantiate attached context type arguments)
      (type.instantiate context arguments) := by
  apply (tell _).bind
  intro _
  apply (ask _).bind
  intro _
  apply (checkImports _ _ _).bind
  intro _
  exact conclude context type arguments

end Tells

/-- With every log and without one a program has the result of a traced computation. It adds to a
log the lines of the channels shown among those that it adds to the log of everything, which are
those of the events; without a log it writes nothing. -/
structure Told {α : Type} (program : Option Channels → Telling α) (run : Traced Fault α) :
    Prop where
  result : ∀ attached text, ((program attached).on text).1 = run.result
  text : ∀ channels text, ((program (some channels)).on text).2 =
    text ++ (run.events.filter channels.shows).flatMap Event.line
  whole : ∀ text, ((program (some .all)).on text).2 = text ++ run.events.flatMap Event.line
  silent : ∀ text, ((program none).on text).2 = text

theorem Told.of_tells {α : Type} {program : Option Channels → Telling α} {run : Traced Fault α}
    (tells : ∀ attached, Tells attached (program attached) run) : Told program run where
  result attached text := by rw [tells attached text]
  text channels text := by rw [tells (some channels) text, Channels.foldl_hear_some]
  whole text := by
    rw [tells (some .all) text, Channels.foldl_hear_some]
    exact congrArg (text ++ ·) (Channels.log_all run.events)
  silent text := by rw [tells none text, Channels.foldl_hear_none]

/-! ## Verdicts -/

namespace Registered

variable {options other : Validation.Options}

theorem settle_congr (same : other.nesting = options.nesting) (module : Registered) :
    (module.settle other).1 = (module.settle options).1 ∧
      (module.settle other).2.result = (module.settle options).2.result := by
  cases known : module.verdict with
  | some verdict =>
      rw [settle, settle, known]
      exact ⟨rfl, rfl⟩
  | none =>
      rw [settle, settle, known]
      simp only [module.definition.result_validate same]
      -- The traces in the two pairs differ; they have to be projected away before anything is
      -- compared.
      cases Verdict.ofResult (module.definition.validate options).result with
      | error fault =>
          dsimp only
          exact ⟨rfl, rfl⟩
      | ok verdict =>
          dsimp only
          exact ⟨rfl, rfl⟩

theorem settleAll_congr (same : other.nesting = options.nesting) (modules : List Registered) :
    (settleAll other modules).1 = (settleAll options modules).1 ∧
      (settleAll other modules).2.result = (settleAll options modules).2.result := by
  induction modules with
  | nil => exact ⟨rfl, rfl⟩
  | cons module rest ih =>
      obtain ⟨settled, result⟩ := settle_congr same module
      simp only [settleAll]
      rw [settled, result]
      cases (module.settle options).2.result with
      | error fault =>
          dsimp only
          exact ⟨rfl, rfl⟩
      | ok verdict =>
          dsimp only
          exact ⟨congrArg (_ :: ·) ih.1, ih.2⟩

theorem settleTogether_congr (same : other.nesting = options.nesting)
    (modules : List Registered) :
    settleTogether other modules = settleTogether options modules := by
  induction modules with
  | nil => rfl
  | cons module rest ih =>
      simp only [settleTogether, ih, module.definition.result_validate same]

end Registered

/-! ## Registries with other logs -/

namespace Registry

variable {α β : Type} {change : Option Channels → Option Channels}

def logging (change : Option Channels → Option Channels) (registry : Registry) : Registry :=
  { registry with channels := change registry.channels }

def Op.logging (change : Option Channels → Option Channels) : Op → Op
  | .attach channels => .attach (change channels)
  | op => op

/-- Logs are replaced by logs, and nothing by nothing. -/
abbrev Keeping (change : Option Channels → Option Channels) : Prop :=
  ∀ attached, (change attached).isSome = attached.isSome

/-- A run of a registry and one with other logs: the registries after them differ in the log at
most, and they have the same result, and also the same events if there is a log in both or in
neither. -/
structure Parallels (change : Option Channels → Option Channels) (run other : Run α) : Prop where
  registry : other.1 = run.1.logging change
  result : other.2.result = run.2.result
  events : Keeping change → other.2.events = run.2.events

theorem Parallels.refl (registry : Registry) (run : Traced LinkFault α) :
    Parallels change (registry, run) (registry.logging change, run) :=
  ⟨rfl, rfl, fun _ => rfl⟩

theorem Parallels.andThen {run other : Run α} {next : Registry → α → Run β}
    (first : Parallels change run other)
    (later : ∀ registry value,
      Parallels change (next registry value) (next (registry.logging change) value)) :
    Parallels change (andThen run next) (andThen other next) := by
  unfold Registry.andThen
  rw [first.registry, first.result]
  cases outcome : run.2.result with
  | error fault => exact ⟨rfl, rfl, first.events⟩
  | ok value =>
      have second := later run.1 value
      refine ⟨second.registry, second.result, fun keeping => ?_⟩
      calc (other.2.trace ++ _).toList
        _ = other.2.events ++ (next (run.1.logging change) value).2.events :=
          Trace.toList_append _ _
        _ = run.2.events ++ (next run.1 value).2.events := by
          rw [first.events keeping, second.events keeping]
        _ = (run.2.trace ++ _).toList := (Trace.toList_append _ _).symm

theorem Parallels.returning {run other : Run α} (first : Parallels change run other)
    (value : α → β) :
    Parallels change (Registry.andThen run fun next found => next.returning (value found))
      (Registry.andThen other fun next found => next.returning (value found)) :=
  first.andThen fun next found => .refl next (pure (value found))

theorem Parallels.ite {condition : Prop} [Decidable condition] {yes no other another : Run α}
    (first : Parallels change yes other) (second : Parallels change no another) :
    Parallels change (if condition then yes else no) (if condition then other else another) := by
  by_cases holds : condition
  · rw [if_pos holds, if_pos holds]
    exact first
  · rw [if_neg holds, if_neg holds]
    exact second

theorem options_logging (keeping : Keeping change) (registry : Registry) :
    (registry.logging change).options = registry.options := by
  rw [options, options, logging, keeping]

theorem parallels_register (registry : Registry) (module : Option ModuleDef) :
    Parallels change (registry.register module) ((registry.logging change).register module) := by
  cases module with
  | none => exact .refl registry _
  | some module =>
      refine .ite (.refl registry _) (.ite (.refl registry _) ?_)
      exact .refl { registry with modules := _, positions := _ } _

theorem parallels_registerHost (registry : Registry) (host : Host) :
    Parallels change (registry.registerHost host)
      ((registry.logging change).registerHost host) := by
  refine .ite (.refl registry _) ?_
  exact .refl { registry with hosts := _ } _

theorem parallels_validateAll (registry : Registry) :
    Parallels change registry.validateAll (registry.logging change).validateAll := by
  have nesting : (registry.logging change).options.nesting = registry.options.nesting := rfl
  have concludes : ∀ (validated : Nat) (settled : Registry) (_ : Unit),
      Parallels change (settled, settled.conclude validated)
        (settled.logging change, (settled.logging change).conclude validated) :=
    fun _ settled _ => .refl settled _
  apply Parallels.ite
  -- Side by side nothing is kept of the checks but verdicts, so the runs agree as a whole.
  · have same := Registered.settleTogether_congr nesting registry.modules
    have modules : (registry.logging change).modules = registry.modules := rfl
    rw [modules, same]
    cases Registered.settleTogether registry.options registry.modules with
    | error fault => exact .refl registry _
    | ok found => exact .andThen (.refl { registry with modules := found.1 } _) (concludes _)
  -- In order the checks report what they do, and that only with a log.
  · obtain ⟨settled, result⟩ := Registered.settleAll_congr nesting registry.modules
    refine .andThen ⟨?_, ?_, ?_⟩ (concludes _)
    · exact congrArg (fun modules => logging change { registry with modules := modules }) settled
    · exact congrArg (Except.mapError LinkFault.check) result
    · intro keeping
      change ((Registered.settleAll (registry.logging change).options _).2).events = _
      rw [options_logging keeping]
      rfl

theorem parallels_moduleType (registry : Registry) (name : Name) :
    Parallels change (registry.moduleType name) ((registry.logging change).moduleType name) := by
  have nesting : (registry.logging change).options.nesting = registry.options.nesting := rfl
  have positions : (registry.logging change).positions = registry.positions := rfl
  have modules : (registry.logging change).modules = registry.modules := rfl
  rw [moduleType, moduleType, positions, modules]
  cases registry.positions.lookup name with
  | none => exact .refl registry _
  | some position =>
      dsimp only
      cases registry.modules[position]? with
      | none => exact .refl registry _
      | some module =>
          obtain ⟨settled, result⟩ := Registered.settle_congr nesting module
          dsimp only
          refine .andThen ⟨?_, ?_, ?_⟩ ?_
          · exact congrArg (fun settled => logging change
              { registry with modules := registry.modules.set position settled }) settled
          · exact congrArg (Except.mapError LinkFault.check) result
          · intro keeping
            change ((module.settle (registry.logging change).options).2).events = _
            rw [options_logging keeping]
            rfl
          · intro next verdict
            exact .refl next _

theorem parallels_buildHost (registry : Registry) (name : Name) (items : List (Name × HostItem)) :
    Parallels change (registry.buildHost name items)
      ((registry.logging change).buildHost name items) :=
  .refl registry _

theorem parallels_hostInstance (registry : Registry) (name : Name) :
    Parallels change (registry.hostInstance name)
      ((registry.logging change).hostInstance name) := by
  have same : (registry.logging change).hosts = registry.hosts := rfl
  rw [hostInstance, hostInstance, same]
  cases registry.hosts.lookup name with
  | none => exact .refl registry _
  | some type => exact .refl registry _

theorem parallels_argument (registry : Registry) (source : ArgumentSource) :
    Parallels change (registry.argument source) ((registry.logging change).argument source) := by
  cases source with
  | item name type => exact .refl registry _
  | registeredHost name host =>
      exact (parallels_hostInstance registry host).returning fun type => (name, ItemType.inst type)
  | moduleType name module =>
      exact (parallels_moduleType registry module).returning fun type =>
        (name, ItemType.ofModule type)
  | host name items =>
      exact (parallels_buildHost registry name items).returning fun host =>
        (host.name, ItemType.inst host.items)

theorem parallels_gather (registry : Registry) (sources : List ArgumentSource) :
    Parallels change (registry.gather sources) ((registry.logging change).gather sources) := by
  induction sources generalizing registry with
  | nil => exact .refl registry _
  | cons source rest ih =>
      rw [gather, gather]
      apply (parallels_argument registry source).andThen
      intro next first
      exact (ih next).returning (first :: ·)

theorem parallels_instantiate (registry : Registry) (name : Name) (arguments : Arguments) :
    Parallels change (registry.instantiate name arguments)
      ((registry.logging change).instantiate name arguments) := by
  rw [instantiate, instantiate]
  apply (parallels_moduleType registry name).andThen
  intro next type
  exact .refl next _

/-- Every operation runs in parallel with itself under other logs. -/
theorem parallels_step (registry : Registry) (op : Op) :
    Parallels change (registry.step op) ((registry.logging change).step (op.logging change)) := by
  cases op with
  | attach channels => exact .refl { registry with channels := channels } _
  | register module => exact (parallels_register registry module).returning fun _ => Answer.done
  | registerHost name items =>
      exact (parallels_buildHost registry name items).andThen fun next host =>
        (parallels_registerHost next host).returning Answer.instanceType
  | validateAll => exact (parallels_validateAll registry).returning fun _ => Answer.done
  | moduleType name => exact (parallels_moduleType registry name).returning Answer.moduleType
  | hostInstance name => exact (parallels_hostInstance registry name).returning Answer.instanceType
  | instantiate name sources =>
      exact (parallels_gather registry sources).andThen fun next arguments =>
        (parallels_instantiate next name arguments).returning
          (Answer.instantiated arguments.length)

theorem run_logging (registry : Registry) (ops : List Op) :
    (registry.logging change).run (ops.map (Op.logging change)) =
      (registry.run ops).logging change := by
  induction ops generalizing registry with
  | nil => rfl
  | cons op rest ih =>
      have step : ((registry.logging change).step (op.logging change)).1 =
          (registry.step op).1.logging change := (parallels_step registry op).registry
      change (((registry.logging change).step (op.logging change)).1).run _ = _
      rw [step]
      exact ih (registry.step op).1

def loudly : Option Channels → Option Channels := Option.map fun _ => .all

theorem keeping_loudly : Keeping loudly := by
  intro attached
  exact Option.isSome_map

theorem events_step_loudly (registry : Registry) (op : Op) :
    ((registry.logging loudly).step (op.logging loudly)).2.events = (registry.step op).2.events :=
  (parallels_step registry op).events keeping_loudly

theorem log_loudly (registry : Registry) (events : List Event) :
    (registry.logging loudly).log events =
      if registry.channels.isSome then events.flatMap Event.line else [] := by
  cases attached : registry.channels with
  | none => simp [log, logging, loudly, attached]
  | some channels => simp [log, logging, loudly, attached, Channels.log_all]

def loud (registry : Registry) (ops : List Op) : Registry :=
  (registry.logging loudly).run (ops.map (Op.logging loudly))

/-- An operation after others, seen through logs. Its answer is the same whatever logs there were in
the place of those attached on the way, or if there was none. What it writes to the log, event by
event, are the lines of the channels shown among those that it writes to a log of everything. -/
structure Overheard (registry : Registry) (before : List Op) (op : Op) : Prop where
  answer : ∀ change, (((registry.logging change).run (before.map (Op.logging change))).step
    (op.logging change)).2.result = ((registry.run before).step op).2.result
  text : ((registry.run before).step op).2.events.foldl
      (Channels.hear (registry.run before).channels) [] =
    (registry.run before).channels.elim [] fun channels =>
      (((registry.loud before).step (op.logging loudly)).2.events.filter channels.shows).flatMap
        Event.line
  whole : ((registry.loud before).step (op.logging loudly)).2.events.foldl
      (Channels.hear (registry.loud before).channels) [] =
    if (registry.run before).channels.isSome then
      ((registry.loud before).step (op.logging loudly)).2.events.flatMap Event.line
    else []

/-- A registry writes its log event by event. -/
theorem log_eq_foldl (registry : Registry) (events : List Event) :
    registry.log events = events.foldl (Channels.hear registry.channels) [] := by
  rw [log]
  cases registry.channels with
  | none => exact (Channels.foldl_hear_none [] events).symm
  | some channels => exact (Channels.foldl_hear_some channels [] events).symm

theorem overheard (registry : Registry) (before : List Op) (op : Op) :
    registry.Overheard before op where
  answer change := by
    rw [run_logging]
    exact (parallels_step (registry.run before) op).result
  text := by
    rw [loud, run_logging, events_step_loudly]
    cases (registry.run before).channels with
    | none => exact Channels.foldl_hear_none [] _
    | some channels => exact Channels.foldl_hear_some channels [] _
  whole := by
    rw [loud, run_logging, ← log_eq_foldl]
    exact log_loudly (registry.run before) _

end Registry

/-- **Logs only show.** Checks, instantiations and operations of a registry have the same results
with every log and without one, an instantiation those of its checks alone; and every log, written
event by event, is what the log of everything says of its channels. -/
theorem logs_only_show :
    (∀ (nesting : Nat) (module : ModuleDef),
      (Transparent fun attached =>
        module.validate { nesting := nesting, listening := attached.isSome }) ∧
      ∀ (outer : List Enclosing) (parent : Scope), Transparent fun attached =>
        module.validateIn { nesting := nesting, listening := attached.isSome } outer parent) ∧
    (∀ (context : Name) (type : ModuleType) (arguments : Arguments),
      Told (fun attached => Telling.instantiate attached context type arguments)
        (type.instantiate context arguments) ∧
      (type.instantiate context arguments).result = type.supply context arguments) ∧
    (∀ (registry : Registry) (events : List Event),
      registry.log events = events.foldl (Channels.hear registry.channels) []) ∧
    ∀ (registry : Registry) (before : List Registry.Op) (op : Registry.Op),
      registry.Overheard before op := by
  refine ⟨fun nesting module => ⟨?_, fun outer parent => ?_⟩,
    fun context type arguments => ⟨?_, ?_⟩, Registry.log_eq_foldl, Registry.overheard⟩
  · refine .of_events (fun attached => ?_) fun _ => rfl
    apply ModuleDef.result_validate
    rfl
  · refine .of_events (fun attached => ?_) fun _ => rfl
    apply ModuleDef.result_validateIn
    rfl
  · exact .of_tells fun _ => .instantiate context type arguments
  · exact type.result_instantiate context arguments

end Linkage

import Linkage.Registry

/-!
# A demonstration of linking

An application imports a library of version 1.0.0 and passes a part of it on to a nested module. It
is linked with a newer library, which has an export more, and then with an older one, which lacks an
export. A broken module is registered beside it. Events and results go to the output, invalid
modules to the errors.
-/

set_option autoImplicit false

namespace Linkage.Demo

structure Outcome where
  exitCode : UInt32
  output : Text
  errors : Text

structure Options where
  quiet : Bool := false
  sideBySide : Bool := true

/-- Reads the arguments in order; the first unknown one ends it. An argument ends at a zero byte. -/
def Options.read (options : Options) : List Text → Except Text Options
  | [] => .ok options
  | argument :: rest =>
      let word := argument.beforeZero
      if word = ("--quiet" : Text) then { options with quiet := true }.read rest
      else if word = ("--sequential" : Text) then { options with sideBySide := false }.read rest
      else .error word

def onePage : Limits := ⟨1, none⟩

def mallocType : FuncType := ⟨[.i32], [.i32]⟩

def freeType : FuncType := ⟨[.i32], []⟩

def newLibrary : List (Name × HostItem) :=
  [("memory", .memory onePage), ("malloc", .func mallocType), ("free", .func freeType)]

def oldLibrary : List (Name × HostItem) :=
  [("memory", .memory onePage), ("free", .func freeType)]

def allocator : ModuleDef where
  name := "allocator"
  definitions := [
    .importItem "libc" (.inst [("malloc", .complete (.core (.func mallocType)))]),
    .exportAlias ⟨0, "malloc", ItemKind.func⟩,
    .exportItem "alloc" ⟨ItemKind.func, 0⟩]

def application : ModuleDef where
  name := "app"
  definitions := [
    .importItem "libc-1.0.0" (.inst [
      ("memory", .complete (.core (.memory onePage))),
      ("malloc", .complete (.core (.func mallocType)))]),
    allocator.asNested,
    .instantiate 0 [("libc", ⟨ItemKind.inst, 0⟩)],
    .exportAlias ⟨1, "alloc", ItemKind.func⟩,
    .exportAlias ⟨0, "memory", ItemKind.memory⟩,
    .exportItem "alloc" ⟨ItemKind.func, 0⟩,
    .exportItem "memory" ⟨ItemKind.memory, 0⟩]

def broken : ModuleDef where
  name := "broken"
  definitions := [
    .importItem "log" (.complete (.core (.func freeType))),
    .exportItem "log" ⟨ItemKind.func, 0⟩,
    .exportItem "missing" ⟨ItemKind.func, 1⟩]

/-- One operation, with what is written of its answer or of its fault. A fault of which nothing is
written ends the program. -/
structure Act where
  op : Registry.Op
  onAnswer : Registry.Answer → Text := fun _ => []
  onFault : LinkFault → Option Text := fun _ => none

def linkWith (library : Name) : Registry.Op :=
  .instantiate "app" [.registeredHost "libc-1.0.0" library]

def script : List Act := [
  { op := .registerHost "libc-1.1.0" newLibrary },
  { op := .registerHost "libc-0.9.0" oldLibrary },
  { op := .register (some application) },
  { op := .register (some broken) },
  { op := .validateAll
    onFault := fun
      | .rejected rejection => some ("Some modules are invalid: " ++ rejection.text ++ "\n")
      | _ => none },
  { op := linkWith "libc-1.1.0"
    onAnswer := fun
      | .instantiated _ type =>
          "Instantiated 'app' with libc-1.1.0: " ++ InstanceType.text type ++ "\n"
      | _ => [] },
  { op := linkWith "libc-0.9.0"
    onFault := fun
      | .check (.invalid error) => some ("Rejected libc-0.9.0: " ++ error.text ++ "\n")
      | _ => none }]

def perform (registry : Registry) (output errors : Text) : List Act → Outcome
  | [] => ⟨0, output, errors⟩
  | act :: rest =>
      let (next, run) := registry.step act.op
      let logged := output ++ registry.log run.events
      match run.result with
      | .ok answer => perform next (logged ++ act.onAnswer answer) errors rest
      | .error fault =>
          match act.onFault fault with
          | some message => perform next logged (errors ++ message) rest
          | none =>
              ⟨1, logged, errors ++ "\n\n========================================\n\n" ++
                "Caught generic error: " ++ fault.message ++ "\n"⟩

def run (program : Text) (arguments : List Text) : Outcome :=
  match Options.read {} arguments with
  | .error word =>
      ⟨1, [], "Unknown argument " ++ Text.quoted word ++ "\nUsage: " ++ program ++
        " [--quiet] [--sequential]\n"⟩
  | .ok options =>
      let channels := if options.quiet then none else some ⟨true, true⟩
      let shown : Text := if options.quiet then [] else application.layout 0 ++ "\n"
      perform { sideBySide := options.sideBySide, channels := channels } shown [] script

end Linkage.Demo

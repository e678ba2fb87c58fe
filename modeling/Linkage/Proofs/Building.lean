import Linkage.Host
import Linkage.Proofs.InPlace
import Linkage.Proofs.Instantiation
import Linkage.Proofs.WellFormed

/-!
# Building host instances

A host instance is built by calls that may fail; errors are caught and the building goes on.
`Building` has the calls with their writes where they make them. A call that fails has written
nothing, and what has been built at the end are the items of the calls that succeeded. Tables and
memories are checked as in modules. The value types of functions and globals are not checked by
anything: the instance is well formed exactly if those that were accepted are value types of the
format.
-/

set_option autoImplicit false

namespace Linkage

/-! ## Items -/

namespace HostItem

def stated? : HostItem → Option ItemType
  | .func type => some (.core (.func type))
  | .table type => some (.core (.table type))
  | .memory limits => some (.core (.memory limits))
  | .global type => some (.core (.global type))
  | .inst type => type.map .inst
  | .module type => type.map .ofModule

def isAcceptable : HostItem → Bool
  | .table type => type.isValid
  | .memory limits => limits.isMemory
  | .inst type => type.isSome
  | .module type => type.isSome
  | .func _ => true
  | .global _ => true

def hasValidValues : HostItem → Bool
  | .func type => (type.params ++ type.results).all ValType.isValid
  | .global type => type.content.isValid
  | _ => true

def handsInWellFormed : HostItem → Bool
  | .inst (some type) => (ItemType.inst type).isWellFormed
  | .module (some type) => (ItemType.ofModule type).isWellFormed
  | _ => true

theorem type_eq_ok_iff {item : HostItem} {name : Name} {type : ItemType} :
    item.type name = .ok type ↔ item.isAcceptable = true ∧ item.stated? = some type := by
  cases item with
  | func stated => simp [HostItem.type, isAcceptable, stated?]
  | global stated => simp [HostItem.type, isAcceptable, stated?]
  | table stated =>
      cases valid : stated.isValid <;> simp [HostItem.type, isAcceptable, stated?, valid]
  | memory limits =>
      cases valid : limits.isMemory <;> simp [HostItem.type, isAcceptable, stated?, valid]
  | inst stated => cases stated <;> simp [HostItem.type, isAcceptable, stated?]
  | module stated => cases stated <;> simp [HostItem.type, isAcceptable, stated?]

theorem exists_stated {item : HostItem} (acceptable : item.isAcceptable = true) :
    ∃ type, item.stated? = some type := by
  cases item with
  | inst found =>
      obtain ⟨exports, given⟩ := Option.isSome_iff_exists.mp acceptable
      exact ⟨.inst exports, by rw [stated?, given, Option.map_some]⟩
  | module found =>
      obtain ⟨moduleType, given⟩ := Option.isSome_iff_exists.mp acceptable
      exact ⟨.ofModule moduleType, by rw [stated?, given, Option.map_some]⟩
  | _ => exact ⟨_, rfl⟩

/-- An item that a host accepts is sound but for its value types. -/
theorem sound_iff_hasValidValues {item : HostItem} {type : ItemType}
    (acceptable : item.isAcceptable = true) (stated : item.stated? = some type)
    (handsIn : item.handsInWellFormed = true) : type.Sound ↔ item.hasValidValues = true := by
  have core : ∀ {found : CoreType}, (ItemType.core found).Sound ↔ found.Sound := by
    intro found
    refine ⟨?_, .core⟩
    rintro ⟨sound⟩
    exact sound
  cases item with
  | func found => cases stated; exact core.trans List.all_eq_true.symm
  | global found => cases stated; exact core
  | table found => cases stated; exact core.trans (iff_of_true acceptable rfl)
  | memory limits => cases stated; exact core.trans (iff_of_true acceptable rfl)
  | inst found =>
      obtain ⟨exports, rfl, rfl⟩ := Option.map_eq_some_iff.mp stated
      exact iff_of_true (ItemType.isWellFormed_iff.mp handsIn) rfl
  | module found =>
      obtain ⟨moduleType, rfl, rfl⟩ := Option.map_eq_some_iff.mp stated
      exact iff_of_true (ItemType.isWellFormed_iff.mp handsIn) rfl

end HostItem

/-! ## Calls in place -/

abbrev Building (α : Type) := InPlace HostFault Host α

namespace Building

open InPlace (ask Performs effect)

def insert (name : Name) (type : ItemType) : Building Bool := do
  let host ← get
  if Entries.has host.items name then return false
  else
    set { host with items := host.items ++ [(name, type)] }
    return true

/-- The item's own check comes first. That a name is taken shows when the item is put there. -/
def define (name : Name) (item : HostItem) : Building Unit := do
  let type ← ask fun _ => item.type name
  if ← insert name type then return ()
  else throw (.duplicate name (← get).name)

/-- Nothing has been written when a definition fails. -/
theorem performs_define (name : Name) (item : HostItem) (host : Host) :
    Performs (define name item) host ((host.define name item).map fun next => ((), next)) := by
  unfold define insert Host.define
  cases item.type name with
  | error fault => rfl
  | ok type =>
      change ((if Entries.has host.items name then _ else _ : Building Bool) >>= _).on host =
        effect host (Except.map _ (if Entries.has host.items name then _ else _))
      cases Entries.has host.items name <;> rfl

end Building

namespace Host

variable {host next : Host} {name : Name} {item : HostItem} {fault : HostFault}
  {done : List (Name × HostItem)}

theorem define_eq_ok_iff :
    host.define name item = .ok next ↔
      ∃ type, item.isAcceptable = true ∧ item.stated? = some type ∧ name ∉ host.items.map Prod.fst ∧
        next = { host with items := host.items ++ [(name, type)] } := by
  rw [define, bind_eq_ok_iff]
  refine exists_congr fun type => ?_
  rw [HostItem.type_eq_ok_iff, and_assoc, ← Entries.has_iff_mem]
  refine and_congr_right fun _ => and_congr_right fun _ => ?_
  cases Entries.has host.items name with
  | true => simp
  | false => simp [pure, Except.pure, eq_comm]

/-! ## Any number of calls -/

def attempt (host : Host) (call : Name × HostItem) : Except HostFault Unit × Host :=
  (Building.define call.1 call.2).on host

def built (host : Host) (calls : List (Name × HostItem)) : Host :=
  calls.foldl (fun current call => (current.attempt call).2) host

def successes : Host → List (Name × HostItem) → List (Name × HostItem)
  | _, [] => []
  | host, call :: rest =>
      (if (host.attempt call).1.isOk then [call] else []) ++ (host.attempt call).2.successes rest

theorem attempt_eq (host : Host) (call : Name × HostItem) :
    host.attempt call =
      InPlace.effect host ((host.define call.1 call.2).map fun next => ((), next)) :=
  Building.performs_define call.1 call.2 host

theorem attempt_of_error {call : Name × HostItem} (failed : (host.attempt call).1 = .error fault) :
    (host.attempt call).2 = host := by
  rw [attempt_eq] at failed ⊢
  cases outcome : host.define call.1 call.2 with
  | ok next => rw [outcome] at failed; cases failed
  | error found => rfl

theorem attempt_eq_ok_iff {call : Name × HostItem} :
    (host.attempt call).1 = .ok () ↔
      call.2.isAcceptable = true ∧ call.1 ∉ host.items.map Prod.fst := by
  rw [attempt_eq]
  constructor
  · intro success
    cases outcome : host.define call.1 call.2 with
    | error found => rw [outcome] at success; cases success
    | ok next =>
        obtain ⟨_, acceptable, _, new, _⟩ := define_eq_ok_iff.mp outcome
        exact ⟨acceptable, new⟩
  · rintro ⟨acceptable, new⟩
    obtain ⟨type, stated⟩ := HostItem.exists_stated acceptable
    rw [define_eq_ok_iff.mpr ⟨type, acceptable, stated, new, rfl⟩]
    rfl

def Stands (type : ItemType) (item : HostItem) : Prop :=
  item.isAcceptable = true ∧ item.stated? = some type

/-- A host holds the items of the calls that have succeeded, each name once. -/
structure Stocked (host : Host) (done : List (Name × HostItem)) : Prop where
  items : Entries.Aligned Stands host.items done
  distinct : (host.items.map Prod.fst).Nodup

theorem Stocked.attempt (stocked : host.Stocked done) (call : Name × HostItem) :
    (host.attempt call).2.Stocked (done ++ if (host.attempt call).1.isOk then [call] else []) := by
  rw [attempt_eq]
  cases outcome : host.define call.1 call.2 with
  | error fault =>
      change host.Stocked (done ++ [])
      rw [List.append_nil]
      exact stocked
  | ok next =>
      obtain ⟨type, acceptable, stated, new, same⟩ := define_eq_ok_iff.mp outcome
      subst same
      change Host.Stocked _ (done ++ [call])
      refine ⟨stocked.items.append (.cons ⟨rfl, acceptable, stated⟩ .nil), ?_⟩
      change ((host.items ++ (some (call.1, type)).toList).map Prod.fst).Nodup
      refine Entries.nodup_append_new stocked.distinct fun entry added => ?_
      cases added
      exact new

theorem Stocked.built (stocked : host.Stocked done) (calls : List (Name × HostItem)) :
    (host.built calls).Stocked (done ++ host.successes calls) := by
  induction calls generalizing host done with
  | nil =>
      rw [successes, List.append_nil]
      exact stocked
  | cons call rest ih =>
      rw [successes, ← List.append_assoc]
      exact ih (stocked.attempt call)

theorem successes_subset (host : Host) (calls : List (Name × HostItem)) :
    host.successes calls ⊆ calls := by
  induction calls generalizing host with
  | nil => exact List.nil_subset _
  | cons call rest ih =>
      rw [successes]
      refine List.append_subset.mpr ⟨?_, List.subset_cons_of_subset call (ih _)⟩
      split <;> simp

theorem Stocked.names_nodup (stocked : host.Stocked done) : (done.map Prod.fst).Nodup :=
  stocked.items.names_eq ▸ stocked.distinct

theorem Stocked.acceptable (stocked : host.Stocked done) {call : Name × HostItem}
    (among : call ∈ done) : call.2.isAcceptable = true := by
  obtain ⟨_, _, acceptable, _⟩ := stocked.items.covers call.1 call.2
    (Entries.lookup_of_mem_nodup stocked.names_nodup among)
  exact acceptable

theorem Stocked.lookup_eq_some_iff (stocked : host.Stocked done) {type : ItemType} :
    host.items.lookup name = some type ↔ ∃ item, (name, item) ∈ done ∧ Stands type item := by
  have distinct := stocked.names_nodup
  constructor
  · intro found
    obtain ⟨item, among, stands⟩ := stocked.items.swap.covers name type found
    exact ⟨item, Entries.mem_of_lookup among, stands⟩
  · rintro ⟨item, among, _, stated⟩
    obtain ⟨other, found, _, same⟩ :=
      stocked.items.covers name item (Entries.lookup_of_mem_nodup distinct among)
    rw [found, Option.some.inj (same.symm.trans stated)]

/-- Only the value types of functions and globals can make a host ill formed. -/
theorem Stocked.isWellFormed_iff (stocked : host.Stocked done)
    (handsIn : ∀ call ∈ done, call.2.handsInWellFormed = true) :
    (ItemType.inst host.items).isWellFormed = true ↔
      ∀ call ∈ done, call.2.hasValidValues = true := by
  rw [ItemType.isWellFormed_iff]
  constructor
  · intro sound call among
    obtain ⟨type, found, acceptable, stated⟩ := stocked.items.covers call.1 call.2
      (Entries.lookup_of_mem_nodup stocked.names_nodup among)
    have iff := HostItem.sound_iff_hasValidValues acceptable stated (handsIn call among)
    cases sound with
    | inst each => exact iff.mp (each call.1 type found)
  · intro valid
    refine .inst fun name type found => ?_
    obtain ⟨item, among, acceptable, stated⟩ := stocked.lookup_eq_some_iff.mp found
    have iff := HostItem.sound_iff_hasValidValues acceptable stated (handsIn _ among)
    exact iff.mpr (valid _ among)

structure Attempted (host : Host) (call : Name × HostItem) : Prop where
  effect : host.attempt call =
    InPlace.effect host ((host.define call.1 call.2).map fun next => ((), next))
  succeeds : (host.attempt call).1 = .ok () ↔
    call.2.isAcceptable = true ∧ call.1 ∉ host.items.map Prod.fst
  failed : ∀ fault, (host.attempt call).1 = .error fault → (host.attempt call).2 = host

structure Furnished (name : Name) (calls : List (Name × HostItem)) : Prop where
  items : ∀ itemName type, (Host.built { name := name } calls).items.lookup itemName = some type ↔
    ∃ item, (itemName, item) ∈ Host.successes { name := name } calls ∧ item.stated? = some type
  names : ((Host.successes { name := name } calls).map Prod.fst).Nodup
  wellFormed : (∀ call ∈ calls, call.2.handsInWellFormed = true) →
    ((ItemType.inst (Host.built { name := name } calls).items).isWellFormed = true ↔
      ∀ call ∈ Host.successes { name := name } calls, call.2.hasValidValues = true)

theorem furnished (name : Name) (calls : List (Name × HostItem)) : Furnished name calls := by
  have start : Host.Stocked { name := name } [] := ⟨.nil, List.nodup_nil⟩
  have stocked : (Host.built { name := name } calls).Stocked
      (Host.successes { name := name } calls) := start.built calls
  refine ⟨?_, stocked.names_nodup, ?_⟩
  · intro itemName type
    rw [stocked.lookup_eq_some_iff]
    constructor
    · rintro ⟨item, among, _, stated⟩
      exact ⟨item, among, stated⟩
    · rintro ⟨item, among, stated⟩
      exact ⟨item, among, stocked.acceptable among, stated⟩
  · intro handsIn
    exact stocked.isWellFormed_iff fun call among => handsIn call (successes_subset _ _ among)

/-- **Host instances hold what was defined.** A call fails if the item does not pass the host's own
check or its name is taken, and then it leaves the host unchanged. After any calls, errors caught,
the instance has the names of those that succeeded with the types stated in them. If the types of
instances and modules handed in are well formed, it is well formed exactly if the functions and
globals among its items have valid value types. -/
theorem built_wellFormed_iff (name : Name) (calls : List (Name × HostItem)) :
    (∀ host call, Attempted host call) ∧ Furnished name calls :=
  ⟨fun host call => ⟨host.attempt_eq call, attempt_eq_ok_iff, fun _ => attempt_of_error⟩,
    furnished name calls⟩

/-- Calls of which the second, third and fifth fail. -/
def pier : List (Name × HostItem) :=
  [([1], .func ⟨[.i32], []⟩), ([1], .memory ⟨1, none⟩), ([2], .table ⟨.i64, ⟨1, none⟩⟩),
    ([2], .table ⟨.funcref, ⟨1, some 2⟩⟩), ([3], .module none),
    ([3], .inst (some [([4], .memory ⟨1, none⟩)]))]

theorem built_wellFormed_iff_pier :
    (∀ call ∈ pier, call.2.handsInWellFormed = true) ∧
      (ItemType.inst (Host.built { name := [5] } pier).items).isWellFormed = true ∧
      (Host.built { name := [5] } pier).items.lookup [2] =
        some (.table .funcref ⟨1, some 2⟩) := by
  have handsIn : ∀ call ∈ pier, call.2.handsInWellFormed = true := by decide +kernel
  obtain ⟨_, furnished⟩ := built_wellFormed_iff [5] pier
  have accepted : Host.successes { name := [5] } pier =
      [([1], .func ⟨[.i32], []⟩), ([2], .table ⟨.funcref, ⟨1, some 2⟩⟩),
        ([3], .inst (some [([4], .memory ⟨1, none⟩)]))] := by
    rfl
  refine ⟨handsIn, (furnished.wellFormed handsIn).mpr ?_, (furnished.items _ _).mpr ?_⟩
  · rw [accepted]
    decide +kernel
  · rw [accepted]
    exact ⟨.table ⟨.funcref, ⟨1, some 2⟩⟩, by simp, rfl⟩

/-- A function and a global of a value type that is none are accepted. -/
theorem built_not_wellFormed :
    ¬ ∀ (name : Name) (calls : List (Name × HostItem)),
      (∀ call ∈ calls, call.2.handsInWellFormed = true) →
        (ItemType.inst (Host.built { name := name } calls).items).isWellFormed = true := by
  intro claim
  have wrong := claim [101] [([102], .func ⟨[⟨0⟩], []⟩), ([103], .global ⟨⟨0⟩, false⟩)]
    (by decide +kernel)
  revert wrong
  decide +kernel

end Host

end Linkage

import Linkage.Proofs.Order
import Linkage.Type.Checker

/-!
# What a checker finds

A checker that walks through two types comes to the first mismatch between them, seen from the path
at which the walk began, and leaves the path as it was (`Finds`). There is one lemma for each way to
put comparisons together. Parts that are one object are equal, and equal parts match, so it makes no
difference which parts the walk passes over. Imports exchange the two types, and so the walk is
followed in both directions at once.
-/

set_option autoImplicit false

namespace Linkage

def Checker.left (checker : Checker) : Option Mismatch → Bool × Checker
  | none => (true, checker)
  | some mismatch =>
      (false, { checker with
        mismatch := Mismatch.text ⟨checker.path ++ mismatch.path, mismatch.reason⟩ })

namespace Checking

/-- A comparison finds a mismatch, or none, whatever the checker has done before. -/
def Finds (check : Checking) (answer : Option Mismatch) : Prop :=
  ∀ checker, check checker = checker.left answer

theorem finds_matched : Finds (pure true) none := fun _ => rfl

theorem finds_fail (reason : Reason) : Finds (fail reason) (some ⟨[], reason⟩) := by
  intro checker
  rw [Checker.left, List.append_nil]
  rfl

/-- Of two comparisons one after the other the first mismatch counts. -/
theorem Finds.andThen {first second : Checking} {answer later : Option Mismatch}
    (finds : Finds first answer) (next : Finds second later) :
    Finds (andThen first second) (answer.or later) := by
  intro checker
  change (if (first checker).1 then second else pure false) (first checker).2 = _
  rw [finds checker]
  cases answer with
  | none => exact next checker
  | some mismatch => rfl

theorem Finds.inOrder {α : Type} {check : α → Checking} {answer : α → Option Mismatch}
    {parts : List α} (each : ∀ part ∈ parts, Finds (check part) (answer part)) :
    Finds (inOrder check parts) (parts.findSome? answer) := by
  induction parts with
  | nil => exact finds_matched
  | cons part rest ih =>
      have first := each part List.mem_cons_self
      have others := ih fun part later => each part (List.mem_cons_of_mem _ later)
      rw [Checking.inOrder, List.findSome?_cons]
      have both := first.andThen others
      cases found : answer part with
      | none => rw [found] at both; exact both
      | some mismatch => rw [found] at both; exact both

/-- A mismatch inside an entry is one under the entry, and the entry is taken off the path again. -/
theorem Finds.within {check : Checking} {answer : Option Mismatch} (finds : Finds check answer)
    (step : Step) : Finds (within step check) (answer.map (Mismatch.under step)) := by
  intro checker
  have steps : Checking.within step check checker =
      let after := check { checker with path := checker.path ++ [step] }
      (after.1, { after.2 with path := after.2.path.dropLast }) := rfl
  rw [steps, finds]
  cases answer with
  | none => simp [Checker.left]
  | some mismatch => simp [Checker.left, Mismatch.under]

/-- Types that are one object match, so they may be passed over. -/
theorem Finds.unlessShared {check : Checking} {found expected : ItemType}
    (finds : Finds check (found.mismatch? expected)) (shared : List Step → Bool) :
    Finds (unlessShared shared found expected check) (found.mismatch? expected) := by
  intro checker
  change (if shared checker.path && decide (found = expected) then pure true else check) checker = _
  split
  next same =>
    obtain ⟨_, equal⟩ := Bool.and_eq_true_iff.mp same
    rw [of_decide_eq_true equal, ItemType.mismatch?_self]
    rfl
  next => exact finds checker

end Checking

/-! ## Walks -/

namespace Checking

variable {shared : List Step → Bool}

def entry (shared : List Step → Bool) (role : Role) (offered : InstanceType)
    (wanted : Name × ItemType) : Checking :=
  match offered.lookup wanted.1 with
  | none => fail (.missing role wanted.1)
  | some offer => within ⟨role, wanted.1⟩ (items shared offer wanted.2)

theorem inOrder_map {α β : Type} (check : β → Checking) (change : α → β) (parts : List α) :
    inOrder check (parts.map change) = inOrder (fun part => check (change part)) parts := by
  induction parts with
  | nil => rfl
  | cons part rest ih => rw [List.map_cons, inOrder, inOrder, ih]

theorem entries_eq (shared : List Step → Bool) (role : Role) (offered wanted : InstanceType) :
    entries shared role offered wanted =
      inOrder (entry shared role offered) (Entries.sorted wanted) := by
  conv_rhs => rw [← List.attach_map_subtype_val (Entries.sorted wanted), inOrder_map]
  rw [entries]
  congr 1
  funext part
  obtain ⟨want, inside⟩ := part
  dsimp only [entry]
  split
  next absent => rw [absent]
  next offer found => rw [found]

/-- A family of entries is walked to its first mismatch if their types are. -/
theorem finds_entries {role : Role} {offered wanted : InstanceType}
    (each : ∀ offer ∈ offered, ∀ want ∈ wanted,
      Finds (items shared offer.2 want.2) (offer.2.mismatch? want.2)) :
    Finds (entries shared role offered wanted)
      (Entries.mismatch? role offered wanted ItemType.mismatch?) := by
  rw [entries_eq, Entries.mismatch?]
  apply Finds.inOrder
  intro want inside
  unfold entry Entries.mismatchAt?
  cases found : offered.lookup want.1 with
  | none => exact finds_fail _
  | some offer =>
      exact (each _ (Entries.mem_of_lookup found) _ (Entries.mem_of_mem_sorted inside)).within _

theorem finds_core (found expected : CoreType) :
    Finds (items shared (.core found) (.core expected)) (found.mismatch? expected) := by
  rw [items, CoreType.mismatch?]
  split
  · exact finds_fail _
  · split
    · exact finds_fail _
    · exact finds_matched

theorem finds_modules {found expected : ModuleType}
    (eachExport : ∀ offer ∈ found.exports, ∀ want ∈ expected.exports,
      Finds (items shared offer.2 want.2) (offer.2.mismatch? want.2))
    (eachImport : ∀ offer ∈ expected.imports, ∀ want ∈ found.imports,
      Finds (items shared offer.2 want.2) (offer.2.mismatch? want.2)) :
    Finds (modules shared found expected) (found.mismatch? expected) := by
  rw [modules, ModuleType.mismatch?_eq, InstanceType.mismatch?_eq]
  exact (finds_entries eachExport).andThen (finds_entries eachImport)

/-- Two types are walked to their first mismatch, whichever of them is the lower one. -/
def Walked (shared : List Step → Bool) (type other : ItemType) : Prop :=
  Finds (items shared type other) (type.mismatch? other) ∧
    Finds (items shared other type) (other.mismatch? type)

theorem items_of_kind_ne {found expected : ItemType} (different : found.kind ≠ expected.kind) :
    items shared found expected = fail (.kind found.kind expected.kind) := by
  cases found with
  | core found =>
      cases expected with
      | core expected =>
          rw [items]
          exact if_pos different
      | inst others => rw [items] <;> simp
      | module imports exports => rw [items] <;> simp
  | inst exports =>
      cases expected with
      | inst others => exact absurd rfl different
      | _ => rw [items] <;> simp
  | module imports exports =>
      cases expected with
      | module otherImports otherExports => exact absurd rfl different
      | _ => rw [items] <;> simp

theorem Walked.of_kind_ne {type other : ItemType} (different : type.kind ≠ other.kind) :
    Walked shared type other := by
  rw [Walked, ItemType.mismatch?_of_kind_ne different,
    ItemType.mismatch?_of_kind_ne (Ne.symm different), items_of_kind_ne different,
    items_of_kind_ne (Ne.symm different)]
  exact ⟨finds_fail _, finds_fail _⟩

theorem Walked.inst {exports others : InstanceType}
    (each : ∀ entry ∈ exports, ∀ other, Walked shared entry.2 other) :
    Walked shared (.inst exports) (.inst others) := by
  have forward : Finds (entries shared .exports exports others)
      ((ItemType.inst exports).mismatch? (.inst others)) := by
    rw [ItemType.mismatch?_inst, InstanceType.mismatch?_eq]
    exact finds_entries fun offer among want _ => (each offer among want.2).1
  have backward : Finds (entries shared .exports others exports)
      ((ItemType.inst others).mismatch? (.inst exports)) := by
    rw [ItemType.mismatch?_inst, InstanceType.mismatch?_eq]
    exact finds_entries fun offer _ want inside => (each want inside offer.2).2
  rw [Walked, items, items]
  exact ⟨forward.unlessShared shared, backward.unlessShared shared⟩

theorem Walked.module {imports exports otherImports otherExports : InstanceType}
    (eachImport : ∀ entry ∈ imports, ∀ other, Walked shared entry.2 other)
    (eachExport : ∀ entry ∈ exports, ∀ other, Walked shared entry.2 other) :
    Walked shared (.module imports exports) (.module otherImports otherExports) := by
  have forward : Finds (modules shared ⟨imports, exports⟩ ⟨otherImports, otherExports⟩)
      ((ItemType.module imports exports).mismatch? (.module otherImports otherExports)) :=
    finds_modules (fun offer among want _ => (eachExport offer among want.2).1)
      fun offer _ want inside => (eachImport want inside offer.2).2
  have backward : Finds (modules shared ⟨otherImports, otherExports⟩ ⟨imports, exports⟩)
      ((ItemType.module otherImports otherExports).mismatch? (.module imports exports)) :=
    finds_modules (fun offer _ want inside => (eachExport want inside offer.2).2)
      fun offer among want _ => (eachImport offer among want.2).1
  rw [Walked, items, items]
  exact ⟨forward.unlessShared shared, backward.unlessShared shared⟩

theorem walked (shared : List Step → Bool) (type other : ItemType) :
    Walked shared type other := by
  -- The recursion follows one of the two types, at whichever end of the walk it stands.
  induction type using ItemType.entryInduction generalizing other with
  | core type =>
      cases other with
      | core other =>
          rw [Walked, ItemType.mismatch?_core, ItemType.mismatch?_core]
          exact ⟨finds_core type other, finds_core other type⟩
      | _ => exact .of_kind_ne (by cases type <;> simp [ItemType.kind, CoreType.kind])
  | inst exports ih =>
      cases other with
      | core other => exact .of_kind_ne (by cases other <;> simp [ItemType.kind, CoreType.kind])
      | inst others => exact .inst ih
      | module imports exports => exact .of_kind_ne (by simp [ItemType.kind])
  | module imports exports importsIh exportsIh =>
      cases other with
      | core other => exact .of_kind_ne (by cases other <;> simp [ItemType.kind, CoreType.kind])
      | inst others => exact .of_kind_ne (by simp [ItemType.kind])
      | module otherImports otherExports => exact .module importsIh exportsIh

end Checking

namespace Comparison

theorem finds_walk (shared : List Step → Bool) (comparison : Comparison) :
    Checking.Finds (comparison.walk shared) (comparison.found.mismatch? comparison.expected) := by
  have each (offer want : ItemType) :
      Checking.Finds (Checking.items shared offer want) (offer.mismatch? want) :=
    (Checking.walked shared offer want).1
  cases comparison with
  | items found expected => exact each found expected
  | instances found expected =>
      rw [Comparison.found, Comparison.expected, ItemType.mismatch?_inst, InstanceType.mismatch?_eq]
      exact Checking.finds_entries fun offer _ want _ => each offer.2 want.2
  | modules found expected =>
      rw [Comparison.found, Comparison.expected, ItemType.mismatch?_module]
      exact Checking.finds_modules (fun offer _ want _ => each offer.2 want.2)
        fun offer _ want _ => each offer.2 want.2

/-- A comparison begins afresh: what the checker has done before makes no difference. -/
theorem run_eq (shared : List Step → Bool) (comparison : Comparison) (checker : Checker) :
    comparison.run shared checker =
      Checker.left {} (comparison.found.mismatch? comparison.expected) :=
  comparison.finds_walk shared {}

theorem run_fst (shared : List Step → Bool) (comparison : Comparison) (checker : Checker) :
    (comparison.run shared checker).1 = comparison.found.isSubtype comparison.expected := by
  rw [run_eq, ItemType.isSubtype]
  cases comparison.found.mismatch? comparison.expected <;> rfl

/-- Types that are passed over because they are one object match. -/
theorem or_isSubtype {passed : Bool} {found expected : ItemType}
    (same : passed = true → found = expected) :
    (passed || found.isSubtype expected) = found.isSubtype expected := by
  cases passed with
  | false => rfl
  | true =>
      rw [same rfl, ItemType.isSubtype, ItemType.mismatch?_self]
      rfl

theorem holds_eq (shared : List Step → Bool) (comparison : Comparison) :
    comparison.holds shared = comparison.found.isSubtype comparison.expected := by
  cases comparison with
  | items found expected => exact run_fst shared (.items found expected) {}
  | instances found expected =>
      rw [holds, run_fst]
      apply or_isSubtype
      intro passed
      exact congrArg ItemType.inst (of_decide_eq_true (Bool.and_eq_true_iff.mp passed).2)
  | modules found expected =>
      rw [holds, run_fst]
      apply or_isSubtype
      intro passed
      exact congrArg ItemType.ofModule (of_decide_eq_true (Bool.and_eq_true_iff.mp passed).2)

/-- **Checkers decide the order of types.** Whatever a checker has done before, and whichever parts
are one object, it finds that two items match if and only if the first is below the second. Instance
types and module types compared as such, and types compared by a checker of their own, get the
answer of the items. -/
theorem run_decides_below (shared : List Step → Bool) (checker : Checker) :
    (∀ a b : ItemType, ((items a b).run shared checker).1 = true ↔ a.Below b) ∧
    (∀ comparison : Comparison, (comparison.run shared checker).1 =
      ((items comparison.found comparison.expected).run shared checker).1) ∧
    (∀ comparison : Comparison, comparison.holds shared =
      ((items comparison.found comparison.expected).run shared checker).1) ∧
    (∀ a b : ItemType, a.isSubtype b = ((items a b).run shared checker).1) := by
  have items_fst (a b : ItemType) : ((items a b).run shared checker).1 = a.isSubtype b :=
    run_fst shared (.items a b) checker
  refine ⟨?_, ?_, ?_, ?_⟩
  · intro a b
    rw [items_fst, ItemType.isSubtype_iff]
  · intro comparison
    rw [items_fst, run_fst]
  · intro comparison
    rw [items_fst, holds_eq]
  · intro a b
    rw [items_fst]

end Comparison

end Linkage

import Linkage.Proofs.Subtyping

/-!
# Subtyping is a partial order

The laws of `Below`, and what they say of the comparison. A comparison may pass over two parts that
are one object; `comparedBy` leaves open where this happens, and its answer is the same in every
case, because each type is below itself.
-/

set_option autoImplicit false

namespace Linkage

namespace ItemType

theorem Below.refl (type : ItemType) : Below type type := by
  induction type using entryInduction with
  | core type => exact .core type
  | inst exports ih => exact below_inst_iff.mpr (.refl ih)
  | module imports exports importsIh exportsIh =>
      exact below_module_iff.mpr ⟨.refl exportsIh, .refl importsIh⟩

theorem Below.trans {lower middle upper : ItemType} (below : Below lower middle)
    (above : Below middle upper) : Below lower upper := by
  -- The type in the middle stays in the middle in its imports, where the ends change places.
  induction middle using entryInduction generalizing lower upper with
  | core type =>
      cases below
      exact above
  | inst exports ih =>
      cases below with
      | inst named each =>
          cases above with
          | inst namedAbove eachAbove =>
              have first := below_inst_iff.mp (.inst named each)
              have second := below_inst_iff.mp (.inst namedAbove eachAbove)
              apply below_inst_iff.mpr
              exact first.trans second fun entry inside _ _ => ih entry inside
  | module imports exports importsIh exportsIh =>
      cases below with
      | module exported eachExport imported eachImport =>
          cases above with
          | module exportedAbove eachExportAbove importedAbove eachImportAbove =>
              obtain ⟨exportsBelow, importsBelow⟩ :=
                below_module_iff.mp (.module exported eachExport imported eachImport)
              obtain ⟨exportsAbove, importsAbove⟩ := below_module_iff.mp
                (.module exportedAbove eachExportAbove importedAbove eachImportAbove)
              apply below_module_iff.mpr
              constructor
              · exact exportsBelow.trans exportsAbove fun entry inside _ _ => exportsIh entry inside
              · exact importsAbove.trans importsBelow fun entry inside _ _ => importsIh entry inside

theorem has_eq_of_covers {left right : InstanceType} (forward : Entries.Covers Below left right)
    (backward : Entries.Covers Below right left) (name : Name) :
    Entries.has left name = Entries.has right name :=
  Bool.eq_iff_iff.mpr ⟨(Entries.covers_iff.mp backward).1 name,
    (Entries.covers_iff.mp forward).1 name⟩

theorem Same.of_covers {left right : InstanceType} (forward : Entries.Covers Below left right)
    (backward : Entries.Covers Below right left)
    (each : ∀ entry ∈ left, ∀ other, Below entry.2 other → Below other entry.2 →
      Same entry.2 other) (name : Name) (value other : ItemType)
    (found : left.lookup name = some value) (foundRight : right.lookup name = some other) :
    Same value other := by
  have below := (Entries.covers_iff.mp forward).2 name value other found foundRight
  have above := (Entries.covers_iff.mp backward).2 name other value foundRight found
  exact each (name, value) (Entries.mem_of_lookup found) other below above

theorem Below.antisymm {left right : ItemType} (below : Below left right)
    (above : Below right left) : Same left right := by
  -- Both hypotheses are needed at each entry, whichever way round it is compared.
  induction left using entryInduction generalizing right with
  | core type =>
      cases below
      exact .core type
  | inst exports ih =>
      cases right with
      | inst others =>
          have forward := below_inst_iff.mp below
          have backward := below_inst_iff.mp above
          refine .inst (has_eq_of_covers forward backward) (Same.of_covers forward backward ?_)
          exact fun entry inside other => ih entry inside
      | core _ => cases below
      | module _ _ => cases below
  | module imports exports importsIh exportsIh =>
      cases right with
      | module otherImports otherExports =>
          obtain ⟨exportsBelow, importsBelow⟩ := below_module_iff.mp below
          obtain ⟨exportsAbove, importsAbove⟩ := below_module_iff.mp above
          refine .module (has_eq_of_covers importsAbove importsBelow)
            (Same.of_covers importsAbove importsBelow ?_)
            (has_eq_of_covers exportsBelow exportsAbove)
            (Same.of_covers exportsBelow exportsAbove ?_)
          · exact fun entry inside other => importsIh entry inside
          · exact fun entry inside other => exportsIh entry inside
      | core _ => cases below
      | inst _ => cases below

theorem Same.below_and_above {left right : ItemType} (same : Same left right) :
    Below left right ∧ Below right left := by
  induction same with
  | core type => exact ⟨.core type, .core type⟩
  | inst named each ih =>
      constructor
      · refine .inst (fun name => (named name).symm ▸ id) ?_
        intro name offer want offered wanted
        exact (ih name offer want offered wanted).1
      · refine .inst (fun name => named name ▸ id) ?_
        intro name offer want offered wanted
        exact (ih name want offer wanted offered).2
  | module imported eachImport exported eachExport importsIh exportsIh =>
      constructor
      · refine .module (fun name => (exported name).symm ▸ id) ?_
          (fun name => imported name ▸ id) ?_
        · intro name offer want offered wanted
          exact (exportsIh name offer want offered wanted).1
        · intro name offer want offered wanted
          exact (importsIh name want offer wanted offered).2
      · refine .module (fun name => exported name ▸ id) ?_
          (fun name => (imported name).symm ▸ id) ?_
        · intro name offer want offered wanted
          exact (exportsIh name want offer wanted offered).2
        · intro name offer want offered wanted
          exact (importsIh name offer want offered wanted).1

theorem isEquivalent_iff {left right : ItemType} :
    left.isEquivalent right = true ↔ Same left right := by
  rw [isEquivalent, Bool.and_eq_true, isSubtype_iff, isSubtype_iff]
  constructor
  · rintro ⟨below, above⟩
    exact below.antisymm above
  · exact Same.below_and_above

end ItemType

/-! ## Comparisons that pass over shared parts -/

/-- Whether every wanted entry is offered and meets the comparison, which may use that both entries
belong to their lists. -/
def Entries.meets {α β : Type} (offered : List (Name × α)) (wanted : List (Name × β))
    (compare : (offer : Name × α) → offer ∈ offered → (want : Name × β) → want ∈ wanted → Bool) :
    Bool :=
  (Entries.sorted wanted).attach.all fun want =>
    match found : offered.lookup want.1.1 with
    | none => false
    | some offer =>
        compare (want.1.1, offer) (Entries.mem_of_lookup found) want.1
          (Entries.mem_of_mem_sorted want.2)

theorem Entries.meets_iff {α β : Type} {offered : List (Name × α)} {wanted : List (Name × β)}
    {test : Name × α → Name × β → Bool} :
    Entries.meets offered wanted (fun offer _ want _ => test offer want) = true ↔
      ∀ name want, wanted.lookup name = some want →
        ∃ offer, offered.lookup name = some offer ∧ test (name, offer) (name, want) = true := by
  unfold Entries.meets
  rw [List.all_eq_true]
  constructor
  · intro all name want found
    have atName := all ⟨(name, want), Entries.mem_sorted_iff.mpr found⟩ (List.mem_attach _ _)
    split at atName
    next => simp at atName
    next offer offeredName => exact ⟨offer, offeredName, atName⟩
  · intro each want _
    obtain ⟨offer, offeredName, holds⟩ :=
      each want.1.1 want.1.2 (Entries.mem_sorted_iff.mp want.2)
    split
    next absent => simp [offeredName] at absent
    next other otherName =>
      rw [offeredName, Option.some.injEq] at otherName
      exact otherName ▸ holds

namespace ItemType

/-- Compares two types entry by entry, without any memory. Where `shared` says so of a path, read
from the inside out, equal parts found there are one object and are not looked into. -/
def comparedBy (shared : List Step → Bool) (path : List Step) : ItemType → ItemType → Bool
  | .core type, .core other => type = other
  | .inst exports, .inst others =>
      (shared path && decide (exports = others)) ||
        Entries.meets exports others fun offer _among want _inside =>
          offer.2.comparedBy shared (⟨.exports, want.1⟩ :: path) want.2
  | .module imports exports, .module otherImports otherExports =>
      (shared path && decide (imports = otherImports ∧ exports = otherExports)) ||
        (Entries.meets exports otherExports fun offer _among want _inside =>
          offer.2.comparedBy shared (⟨.exports, want.1⟩ :: path) want.2) &&
        Entries.meets otherImports imports fun offer _among want _inside =>
          offer.2.comparedBy shared (⟨.imports, want.1⟩ :: path) want.2
  | _, _ => false
termination_by type other => sizeOf type + sizeOf other
decreasing_by
  all_goals
    have offerSmaller := sizeOf_entry_lt _among
    have wantSmaller := sizeOf_entry_lt _inside
    simp only [inst.sizeOf_spec, module.sizeOf_spec]
    omega

/-- The comparison agrees with the order on a pair of types, at every path and in both
directions. -/
def Compared (shared : List Step → Bool) (type other : ItemType) : Prop :=
  ∀ path, (comparedBy shared path type other = true ↔ Below type other) ∧
    (comparedBy shared path other type = true ↔ Below other type)

section Compared

variable {shared : List Step → Bool}

theorem Compared.of_kind_ne {type other : ItemType} (different : type.kind ≠ other.kind)
    (refused : ∀ path, comparedBy shared path type other = false ∧
      comparedBy shared path other type = false) : Compared shared type other := by
  intro path
  rw [(refused path).1, (refused path).2]
  constructor
  · exact ⟨nofun, fun below => absurd below.kind_eq different⟩
  · exact ⟨nofun, fun below => absurd below.kind_eq.symm different⟩

theorem meets_iff_covers {entries others : InstanceType}
    (compared : ∀ entry ∈ entries, ∀ other, Compared shared entry.2 other) (role : Role)
    (path : List Step) :
    (Entries.meets entries others (fun offer _ want _ =>
        offer.2.comparedBy shared (⟨role, want.1⟩ :: path) want.2) = true ↔
      Entries.Covers Below entries others) ∧
    (Entries.meets others entries (fun offer _ want _ =>
        offer.2.comparedBy shared (⟨role, want.1⟩ :: path) want.2) = true ↔
      Entries.Covers Below others entries) := by
  rw [Entries.meets_iff, Entries.meets_iff]
  constructor
  · refine forall₃_congr fun name want _ => exists_congr fun offer =>
      and_congr_right fun offered => ?_
    exact (compared (name, offer) (Entries.mem_of_lookup offered) want _).1
  · refine forall₃_congr fun name want wanted => exists_congr fun offer =>
      and_congr_right fun _ => ?_
    exact (compared (name, want) (Entries.mem_of_lookup wanted) offer _).2

theorem compared (shared : List Step → Bool) (type other : ItemType) :
    Compared shared type other := by
  induction type using entryInduction generalizing other with
  | core type =>
      cases other with
      | core other =>
          intro path
          simp only [comparedBy, decide_eq_true_eq]
          refine ⟨⟨?_, ?_⟩, ⟨?_, ?_⟩⟩
          · rintro rfl
            exact .core type
          · rintro ⟨⟩
            rfl
          · rintro rfl
            exact .core other
          · rintro ⟨⟩
            rfl
      | inst others =>
          exact .of_kind_ne (by cases type <;> nofun) fun path => by simp [comparedBy]
      | module imports exports =>
          exact .of_kind_ne (by cases type <;> nofun) fun path => by simp [comparedBy]
  | inst exports ih =>
      cases other with
      | core other => exact .of_kind_ne (by cases other <;> nofun) fun path => by simp [comparedBy]
      | inst others =>
          intro path
          have entries := @meets_iff_covers shared exports others ih .exports path
          simp only [comparedBy, Bool.or_eq_true, Bool.and_eq_true, decide_eq_true_eq, entries,
            below_inst_iff]
          -- Equal parts match anyway, so it makes no difference whether they are passed over.
          constructor
          · refine or_iff_right_of_imp ?_
            rintro ⟨_, rfl⟩
            exact below_inst_iff.mp (.refl _)
          · refine or_iff_right_of_imp ?_
            rintro ⟨_, rfl⟩
            exact below_inst_iff.mp (.refl _)
      | module imports exports => exact .of_kind_ne nofun fun path => by simp [comparedBy]
  | module imports exports importsIh exportsIh =>
      cases other with
      | core other => exact .of_kind_ne (by cases other <;> nofun) fun path => by simp [comparedBy]
      | inst others => exact .of_kind_ne nofun fun path => by simp [comparedBy]
      | module otherImports otherExports =>
          intro path
          have onExports := @meets_iff_covers shared exports otherExports exportsIh .exports path
          have onImports := @meets_iff_covers shared imports otherImports importsIh .imports path
          simp only [comparedBy, Bool.or_eq_true, Bool.and_eq_true, decide_eq_true_eq, onExports,
            onImports, below_module_iff]
          constructor
          · refine or_iff_right_of_imp ?_
            rintro ⟨_, rfl, rfl⟩
            exact below_module_iff.mp (.refl _)
          · refine or_iff_right_of_imp ?_
            rintro ⟨_, rfl, rfl⟩
            exact below_module_iff.mp (.refl _)

end Compared

theorem comparedBy_eq_isSubtype (shared : List Step → Bool) (path : List Step)
    (type other : ItemType) : comparedBy shared path type other = type.isSubtype other := by
  rw [Bool.eq_iff_iff, isSubtype_iff]
  exact (compared shared type other path).1

/-- Subtyping is a partial order up to the order of entries. Compared with nothing passed over,
every type is below itself, and whichever shared parts a comparison passes over, its answer is the
same; the order is transitive; and types are equivalent if and only if they are the same type with
entries read as finite maps. -/
theorem isSubtype_partial_order :
    (∀ a : ItemType, comparedBy (fun _ => false) [] a a = true) ∧
    (∀ (shared : List Step → Bool) (a b : ItemType),
      comparedBy shared [] a b = a.isSubtype b) ∧
    (∀ a b c : ItemType, a.isSubtype b = true → b.isSubtype c = true → a.isSubtype c = true) ∧
    (∀ a b : ItemType, a.isEquivalent b = true ↔ Same a b) := by
  refine ⟨?_, ?_, ?_, ?_⟩
  · intro a
    rw [comparedBy_eq_isSubtype, isSubtype_iff]
    exact .refl a
  · intro shared a b
    exact comparedBy_eq_isSubtype shared [] a b
  · intro a b c below above
    rw [isSubtype_iff] at below above ⊢
    exact below.trans above
  · intro a b
    exact isEquivalent_iff

def taking (exports : InstanceType) : ItemType :=
  .module [([1], .module [([2], .inst exports)] [])] []

theorem isSubtype_partial_order_taking :
    (taking [([3], .func [] []), ([4], .memory ⟨1, none⟩)]).isSubtype
        (taking [([3], .func [] [])]) = true ∧
      (taking [([3], .func [] [])]).isSubtype (taking []) = true ∧
      (taking [([3], .func [] []), ([4], .memory ⟨1, none⟩)]).isSubtype (taking []) = true := by
  have first : (taking [([3], .func [] []), ([4], .memory ⟨1, none⟩)]).isSubtype
      (taking [([3], .func [] [])]) = true := by decide +kernel
  have second : (taking [([3], .func [] [])]).isSubtype (taking []) = true := by decide +kernel
  exact ⟨first, second, isSubtype_partial_order.2.2.1 _ _ _ first second⟩

end ItemType

end Linkage

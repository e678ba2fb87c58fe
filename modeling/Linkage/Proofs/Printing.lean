import Mathlib.Data.List.Sort
import Linkage.Proofs.Order
import Linkage.Proofs.Words

/-!
# Types and their texts

Types that are the same up to the order of entries have one text, and a text determines its type up
to that order, as long as its value types are known and its names hold no quotation mark. The second
half is proved of texts with something behind them: if two such texts are the same, then so are the
types, and so is what stands behind them.
-/

set_option autoImplicit false

namespace Linkage

namespace Entries

variable {α β : Type}

/-- The sorted entries are determined by the map. -/
theorem sorted_congr {entries others : List (Name × α)}
    (same : ∀ name, entries.lookup name = others.lookup name) : sorted entries = sorted others := by
  have : Std.Antisymm fun first later : Name × α => first.1 < later.1 :=
    ⟨fun _ _ before after => absurd (List.lt_trans before after) (List.lt_irrefl _)⟩
  have : Std.Irrefl fun first later : Name × α => first.1 < later.1 :=
    ⟨fun _ => List.lt_irrefl _⟩
  apply (pairwise_sorted entries).eq_of_mem_iff (pairwise_sorted others)
  intro entry
  rw [mem_sorted_iff, mem_sorted_iff, same]

theorem has_sorted (entries : List (Name × α)) (name : Name) :
    has (sorted entries) name = has entries name := by
  rw [has, lookup_sorted, has]

end Entries

namespace ItemType

/-! ## One text for each type -/

theorem texts_eq {entries others : InstanceType}
    (named : ∀ name, Entries.has entries name = Entries.has others name)
    (each : ∀ name type other, entries.lookup name = some type → others.lookup name = some other →
      type.text = other.text) : texts entries = texts others := by
  rw [texts, texts, ← Entries.sorted_map, ← Entries.sorted_map]
  apply Entries.sorted_congr
  intro name
  rw [Entries.lookup_map, Entries.lookup_map]
  have both := named name
  rw [Entries.has, Entries.has] at both
  cases found : entries.lookup name with
  | none =>
      rw [found, Option.isSome_none] at both
      rw [Option.isSome_eq_false_iff.mp both.symm |> Option.isNone_iff_eq_none.mp]
  | some type =>
      rw [found] at both
      obtain ⟨other, foundOther⟩ := Option.isSome_iff_exists.mp both.symm
      rw [foundOther, Option.map_some, Option.map_some, each name type other found foundOther]

theorem Same.text_eq {type other : ItemType} (same : Same type other) : type.text = other.text := by
  induction same with
  | core type => rfl
  | inst named _ ih => rw [text_inst, text_inst, texts_eq named ih]
  | module imported _ exported _ importsIh exportsIh =>
      rw [text_module, text_module, texts_eq imported importsIh, texts_eq exported exportsIh]

end ItemType

/-! ## Core types -/

namespace CoreType

def valTypes : CoreType → List ValType
  | .func type => type.params ++ type.results
  | .table type => [type.elem]
  | .memory _ => []
  | .global type => [type.content]

variable {rest tail : Text}

theorem func_unique {type other : FuncType}
    (valid : ∀ value ∈ type.params ++ type.results, value.isValid = true)
    (otherValid : ∀ value ∈ other.params ++ other.results, value.isValid = true)
    (same : type.text ++ rest = other.text ++ tail) : type = other ∧ rest = tail := by
  have noParam : ∀ (results : List ValType) (rest : Text),
      ¬ (" (" ++ "param" : Text) <+: ValType.group "result" results ++ (")" ++ rest) := by
    rintro results rest ⟨more, found⟩
    cases results <;> cases found
  have noResult : ∀ rest : Text, ¬ (" (" ++ "result" : Text) <+: ")" ++ rest := by
    rintro rest ⟨more, found⟩
    cases found
  obtain ⟨params, results⟩ := type
  obtain ⟨otherParams, otherResults⟩ := other
  simp only [FuncType.text, List.append_assoc] at same
  obtain ⟨sameParams, later⟩ := ValType.group_unique
    (fun value inside => valid value (List.mem_append_left _ inside))
    (fun value inside => otherValid value (List.mem_append_left _ inside))
    (noParam _ rest) (noParam _ tail) (List.append_cancel_left same)
  obtain ⟨sameResults, rests⟩ := ValType.group_unique
    (fun value inside => valid value (List.mem_append_right _ inside))
    (fun value inside => otherValid value (List.mem_append_right _ inside))
    (noResult rest) (noResult tail) later
  exact ⟨(FuncType.mk.injEq ..).mpr ⟨sameParams, sameResults⟩, List.append_cancel_left rests⟩

theorem table_unique {type other : TableType} (valid : type.elem.isValid = true)
    (otherValid : other.elem.isValid = true) (same : type.text ++ rest = other.text ++ tail) :
    type = other ∧ rest = tail := by
  have noNumber : ∀ {value : ValType} (rest : Text), value.isValid = true →
      ∀ number more, " " ++ (value.name ++ (")" ++ rest)) ≠ " " ++ (Text.ofNat number ++ more) := by
    intro value rest valid number more found
    exact ValType.name_append_ne valid number _ _ (List.append_cancel_left found)
  obtain ⟨elem, limits⟩ := type
  obtain ⟨otherElem, otherLimits⟩ := other
  simp only [TableType.text, List.append_assoc] at same
  obtain ⟨sameLimits, later⟩ := Limits.text_unique (Text.takeWhile_blank _) (Text.takeWhile_blank _)
    (noNumber rest valid) (noNumber tail otherValid) (List.append_cancel_left same)
  obtain ⟨sameElem, rests⟩ := ValType.name_unique valid otherValid rfl rfl
    (List.append_cancel_left later)
  exact ⟨(TableType.mk.injEq ..).mpr ⟨sameElem, sameLimits⟩, List.append_cancel_left rests⟩

theorem memory_unique {limits other : Limits}
    (same : (CoreType.memory limits).text ++ rest = (CoreType.memory other).text ++ tail) :
    limits = other ∧ rest = tail := by
  have noNumber : ∀ (rest : Text) (number : Nat) (more : Text),
      (")" ++ rest : Text) ≠ " " ++ (Text.ofNat number ++ more) := by
    intro rest number more found
    cases found
  simp only [text, List.append_assoc] at same
  obtain ⟨sameLimits, rests⟩ := Limits.text_unique rfl rfl (noNumber rest) (noNumber tail)
    (List.append_cancel_left same)
  exact ⟨sameLimits, List.append_cancel_left rests⟩

theorem global_unique {type other : GlobalType} (valid : type.content.isValid = true)
    (otherValid : other.content.isValid = true) (same : type.text ++ rest = other.text ++ tail) :
    type = other ∧ rest = tail := by
  -- A value type is a word, and a word does not begin with a parenthesis.
  have noWord : ∀ {value : ValType} (rest more : Text), value.isValid = true →
      value.name ++ rest ≠ "(mut " ++ more := by
    intro value rest more valid found
    obtain ⟨letter, head, _, word⟩ := ValType.exists_letter valid
    have heads := congrArg List.head? found
    rw [List.head?_append, head, Option.some_or] at heads
    cases heads
    cases word
  obtain ⟨content, isMutable⟩ := type
  obtain ⟨otherContent, otherMutable⟩ := other
  cases isMutable with
  | true =>
      cases otherMutable with
      | true =>
          simp only [GlobalType.text, if_true, List.append_assoc] at same
          obtain ⟨sameContent, rests⟩ := ValType.name_unique valid otherValid rfl rfl
            (List.append_cancel_left same)
          exact ⟨(GlobalType.mk.injEq ..).mpr ⟨sameContent, rfl⟩, List.append_cancel_left rests⟩
      | false =>
          simp only [GlobalType.text, if_true, Bool.false_eq_true, if_false,
            List.append_assoc] at same
          change ("(global " : Text) ++ ("(mut " ++ _) = _ at same
          exact absurd (List.append_cancel_left same).symm (noWord _ _ otherValid)
  | false =>
      cases otherMutable with
      | true =>
          simp only [GlobalType.text, if_true, Bool.false_eq_true, if_false,
            List.append_assoc] at same
          change _ = ("(global " : Text) ++ ("(mut " ++ _) at same
          exact absurd (List.append_cancel_left same) (noWord _ _ valid)
      | false =>
          simp only [GlobalType.text, Bool.false_eq_true, if_false, List.append_assoc] at same
          obtain ⟨sameContent, rests⟩ := ValType.name_unique valid otherValid rfl rfl
            (List.append_cancel_left same)
          exact ⟨(GlobalType.mk.injEq ..).mpr ⟨sameContent, rfl⟩, List.append_cancel_left rests⟩

end CoreType

namespace ItemType

def opening : ItemKind → Text
  | .func => "(fu"
  | .table => "(ta"
  | .memory => "(me"
  | .global => "(gl"
  | .inst => "(in"
  | .module => "(mo"
  | .type => []

theorem take_text (type : ItemType) (rest : Text) :
    (type.text ++ rest).take 3 = opening type.kind := by
  cases type with
  | core type =>
      rw [text_core]
      cases type with
      | global type =>
          obtain ⟨content, isMutable⟩ := type
          cases isMutable <;> rfl
      | _ => rfl
  | inst exports =>
      rw [text_inst]
      rfl
  | module imports exports =>
      rw [text_module]
      rfl

theorem kind_eq_of_text {type other : ItemType} {rest tail : Text}
    (same : type.text ++ rest = other.text ++ tail) : type.kind = other.kind := by
  have distinct : ∀ kind ∈ ItemKind.all, ∀ other ∈ ItemKind.all, opening kind = opening other →
      kind = other := by decide
  have listed : ∀ kind : ItemKind, kind ∈ ItemKind.all := by
    intro kind
    cases kind <;> decide
  apply distinct _ (listed _) _ (listed _)
  rw [← take_text type rest, same, take_text]

end ItemType

/-- A core type is told from its text. -/
theorem CoreType.text_unique {type other : CoreType} {rest tail : Text}
    (valid : ∀ value ∈ type.valTypes, value.isValid = true)
    (otherValid : ∀ value ∈ other.valTypes, value.isValid = true)
    (same : type.text ++ rest = other.text ++ tail) : type = other ∧ rest = tail := by
  have kinds : type.kind = other.kind := by
    rw [← ItemType.text_core, ← ItemType.text_core] at same
    exact ItemType.kind_eq_of_text same
  cases type with
  | func type =>
      cases other <;> cases kinds
      obtain ⟨types, rests⟩ := func_unique valid otherValid same
      exact ⟨types ▸ rfl, rests⟩
  | table type =>
      cases other <;> cases kinds
      obtain ⟨types, rests⟩ := table_unique (valid _ List.mem_cons_self)
        (otherValid _ List.mem_cons_self) same
      exact ⟨types ▸ rfl, rests⟩
  | memory limits =>
      cases other <;> cases kinds
      obtain ⟨types, rests⟩ := memory_unique same
      exact ⟨types ▸ rfl, rests⟩
  | global type =>
      cases other <;> cases kinds
      obtain ⟨types, rests⟩ := global_unique (valid _ List.mem_cons_self)
        (otherValid _ List.mem_cons_self) same
      exact ⟨types ▸ rfl, rests⟩

namespace ItemType

/-! ## One type for each text -/

inductive Legible : ItemType → Prop where
  | core {type : CoreType} (valid : ∀ value ∈ type.valTypes, value.isValid = true) :
      Legible (.core type)
  | inst {exports : InstanceType}
      (unquoted : ∀ name type, exports.lookup name = some type → 0x22 ∉ name)
      (each : ∀ name type, exports.lookup name = some type → Legible type) : Legible (.inst exports)
  | module {imports exports : InstanceType} (taken : Legible (.inst imports))
      (given : Legible (.inst exports)) : Legible (.module imports exports)

theorem legible_inst_iff {entries : InstanceType} : Legible (.inst entries) ↔
    ∀ name type, entries.lookup name = some type → 0x22 ∉ name ∧ type.Legible := by
  constructor
  · rintro (_ | ⟨unquoted, each⟩) name type found
    exact ⟨unquoted name type found, each name type found⟩
  · intro both
    exact .inst (fun name type found => (both name type found).1)
      (fun name type found => (both name type found).2)

theorem legible_module_iff {imports exports : InstanceType} :
    Legible (.module imports exports) ↔ Legible (.inst imports) ∧ Legible (.inst exports) := by
  constructor
  · rintro (_ | _ | ⟨taken, given⟩)
    exact ⟨taken, given⟩
  · rintro ⟨taken, given⟩
    exact .module taken given

/-- Wherever the text of a type stands, it is told from every other text. -/
def Told (type : ItemType) : Prop :=
  type.Legible → ∀ {other : ItemType} {rest tail : Text}, other.Legible →
    type.text ++ rest = other.text ++ tail → Same type other ∧ rest = tail

theorem name_unique {name other rest tail : Text} (unquoted : 0x22 ∉ name)
    (otherUnquoted : 0x22 ∉ other) (same : name ++ ("\"" ++ rest) = other ++ ("\"" ++ tail)) :
    name = other ∧ rest = tail := by
  have free : ∀ {name : Text}, 0x22 ∉ name → ∀ byte ∈ name, (byte != 0x22) = true := by
    intro name unquoted byte among
    rw [bne_iff_ne]
    intro quote
    exact unquoted (quote ▸ among)
  obtain ⟨names, rests⟩ := Text.span_unique (free unquoted) (free otherUnquoted) rfl rfl same
  exact ⟨names, List.append_cancel_left rests⟩

/-- Entries are told from what follows them, if that does not begin with their keyword. -/
theorem entries_unique {role : Role} {entries others : InstanceType} {rest tail : Text}
    (told : ∀ entry ∈ entries, Told entry.2)
    (legible : Legible (.inst entries)) (otherLegible : Legible (.inst others))
    (ends : ¬ (" (" ++ role.keyword : Text) <+: rest)
    (otherEnds : ¬ (" (" ++ role.keyword : Text) <+: tail)
    (same : Entries.text role (texts entries) ++ rest = Entries.text role (texts others) ++ tail) :
    Entries.Aligned Same (Entries.sorted entries) (Entries.sorted others) ∧ rest = tail := by
  rw [legible_inst_iff] at legible otherLegible
  rw [Entries.text, Entries.text, texts, texts, List.flatMap_map, List.flatMap_map] at same
  refine Text.list_unique (fun _ => True) ?_ (fun _ _ => trivial) ?_ trivial ends trivial
    otherEnds same
  · intro entry
    simp only [List.append_assoc]
    rw [← List.append_assoc]
    exact List.prefix_append _ _
  · intro entry among other present rest tail _ _ same
    obtain ⟨unquoted, plain⟩ := legible _ _ (Entries.mem_sorted_iff.mp among)
    obtain ⟨otherUnquoted, otherPlain⟩ := otherLegible _ _ (Entries.mem_sorted_iff.mp present)
    simp only [Text.doubleQuoted, List.append_assoc] at same
    -- The opening, the keyword, a blank and a quotation mark are the same on both sides.
    have atName := List.append_cancel_left (List.append_cancel_left (List.append_cancel_left
      (List.append_cancel_left same)))
    obtain ⟨names, atType⟩ := name_unique unquoted otherUnquoted atName
    obtain ⟨types, atEnd⟩ := told entry (Entries.mem_of_mem_sorted among) plain otherPlain
      (List.append_cancel_left atType)
    exact ⟨⟨names, types⟩, List.append_cancel_left atEnd⟩

section Aligned

variable {entries others : InstanceType}

theorem has_eq_of_aligned
    (aligned : Entries.Aligned Same (Entries.sorted entries) (Entries.sorted others))
    (name : Name) : Entries.has entries name = Entries.has others name := by
  rw [← Entries.has_sorted entries, ← Entries.has_sorted others, Bool.eq_iff_iff,
    Entries.has_iff_mem, Entries.has_iff_mem, aligned.names_eq]

theorem same_of_aligned
    (aligned : Entries.Aligned Same (Entries.sorted entries) (Entries.sorted others)) (name : Name)
    (type other : ItemType) (found : entries.lookup name = some type)
    (foundOther : others.lookup name = some other) : Same type other := by
  rw [← Entries.lookup_sorted] at found foundOther
  obtain ⟨offer, offered, same⟩ := aligned.covers name other foundOther
  rw [found, Option.some.injEq] at offered
  exact offered ▸ same

end Aligned

theorem told (type : ItemType) : Told type := by
  have noKeyword : ∀ (role : Role) (rest : Text),
      ¬ (" (" ++ role.keyword : Text) <+: ")" ++ rest := by
    rintro role rest ⟨more, found⟩
    cases found
  -- Behind the imports there are exports, or the end.
  have noImport : ∀ (exports : List (Name × Text)) (rest : Text),
      ¬ (" (" ++ Role.imports.keyword : Text) <+:
        Entries.text .exports exports ++ (")" ++ rest) := by
    rintro exports rest ⟨more, found⟩
    cases exports <;> cases found
  induction type using entryInduction with
  | core type =>
      intro legible other rest tail otherLegible same
      have kinds := kind_eq_of_text same
      cases other with
      | core other =>
          obtain ⟨valid⟩ := legible
          obtain ⟨otherValid⟩ := otherLegible
          rw [text_core, text_core] at same
          obtain ⟨types, rests⟩ := CoreType.text_unique valid otherValid same
          exact ⟨types ▸ .core type, rests⟩
      | inst _ => cases type <;> cases kinds
      | module _ _ => cases type <;> cases kinds
  | inst exports ih =>
      intro legible other rest tail otherLegible same
      have kinds := kind_eq_of_text same
      cases other with
      | core other => cases other <;> cases kinds
      | inst others =>
          rw [text_inst, text_inst] at same
          simp only [List.append_assoc] at same
          obtain ⟨aligned, rests⟩ := entries_unique ih legible otherLegible
            (noKeyword .exports rest) (noKeyword .exports tail) (List.append_cancel_left same)
          exact ⟨.inst (has_eq_of_aligned aligned) (same_of_aligned aligned),
            List.append_cancel_left rests⟩
      | module _ _ => cases kinds
  | module imports exports importsIh exportsIh =>
      intro legible other rest tail otherLegible same
      have kinds := kind_eq_of_text same
      cases other with
      | core other => cases other <;> cases kinds
      | inst _ => cases kinds
      | module otherImports otherExports =>
          obtain ⟨taken, given⟩ := legible_module_iff.mp legible
          obtain ⟨otherTaken, otherGiven⟩ := legible_module_iff.mp otherLegible
          rw [text_module, text_module] at same
          simp only [List.append_assoc] at same
          obtain ⟨alignedImports, atExports⟩ := entries_unique importsIh taken otherTaken
            (noImport _ rest) (noImport _ tail) (List.append_cancel_left same)
          obtain ⟨alignedExports, rests⟩ := entries_unique exportsIh given otherGiven
            (noKeyword .exports rest) (noKeyword .exports tail) atExports
          exact ⟨.module (has_eq_of_aligned alignedImports) (same_of_aligned alignedImports)
            (has_eq_of_aligned alignedExports) (same_of_aligned alignedExports),
            List.append_cancel_left rests⟩

/-- **The text of a type is canonical and can be read one way only.** Equivalent types have the same
text; types with known value types and without quotation marks in names are equivalent if they have
the same text. -/
theorem text_canonical (type other : ItemType) :
    (type.isEquivalent other = true → type.text = other.text) ∧
    (type.Legible → other.Legible → type.text = other.text → type.isEquivalent other = true) := by
  constructor
  · intro equivalent
    exact (isEquivalent_iff.mp equivalent).text_eq
  · intro legible otherLegible same
    apply isEquivalent_iff.mpr
    have appended : type.text ++ [] = other.text ++ [] := by rw [same]
    exact (told type legible otherLegible appended).1

def bracket (imports : InstanceType) : ItemType :=
  .module imports [([0x29], .memory ⟨1, some 2⟩)]

theorem text_canonical_bracket :
    let first := bracket [([0x28, 0x20], .func [.i32] []), ([], .table .funcref ⟨1, none⟩)]
    let second := bracket [([], .table .funcref ⟨1, none⟩), ([0x28, 0x20], .func [.i32] [])]
    first.Legible ∧ second.Legible ∧ first.text = second.text ∧
      first.isEquivalent second = true := by
  intro first second
  have func : Legible (.func [.i32] []) := .core (by decide)
  have table : Legible (.table .funcref ⟨1, none⟩) := .core (by decide)
  have memory : Legible (.memory ⟨1, some 2⟩) := .core nofun
  have entries : ∀ {entries : InstanceType}, (∀ entry ∈ entries, 0x22 ∉ entry.1 ∧ entry.2.Legible) →
      Legible (.inst entries) := fun each =>
    legible_inst_iff.mpr fun _ _ found => each _ (Entries.mem_of_lookup found)
  have legible : first.Legible :=
    .module (entries (by simp [func, table])) (entries (by simp [memory]))
  have otherLegible : second.Legible :=
    .module (entries (by simp [func, table])) (entries (by simp [memory]))
  have equivalent : first.isEquivalent second = true := by decide +kernel
  have same := (text_canonical first second).1 equivalent
  exact ⟨legible, otherLegible, same, (text_canonical first second).2 legible otherLegible same⟩

end ItemType

end Linkage

import Mathlib.Data.List.Forall2
import Linkage.Type.Printer

/-!
# Words in texts

When two texts begin with words and are the same, they begin with the same word and go on with the
same rest: `span_unique` says so of words in general, and what follows says it of numbers, value
types, limits and lists. A word is as long as it can be, so the rest must not go on with it; how far
this is taken care of by the blanks and parentheses is what the statements ask for.
-/

set_option autoImplicit false

namespace Linkage

namespace Text

variable {inside : UInt8 → Bool} {first second rest other : Text}

/-- Blanks and parentheses end a word. -/
def inWord (byte : UInt8) : Bool := byte ≠ 0x20 && byte ≠ 0x28 && byte ≠ 0x29

def isDigit (byte : UInt8) : Bool := 0x30 ≤ byte && byte ≤ 0x39

theorem span_unique (each : ∀ byte ∈ first, inside byte = true)
    (eachOther : ∀ byte ∈ second, inside byte = true) (stops : rest.takeWhile inside = [])
    (otherStops : other.takeWhile inside = []) (same : first ++ rest = second ++ other) :
    first = second ∧ rest = other := by
  have words : (first ++ rest).takeWhile inside = (second ++ other).takeWhile inside := by rw [same]
  rw [List.takeWhile_append_of_pos each, List.takeWhile_append_of_pos eachOther, stops, otherStops,
    List.append_nil, List.append_nil] at words
  subst words
  exact ⟨rfl, List.append_cancel_left same⟩

/-! ## Numbers -/

theorem toNat_of_isDigit {char : Char} (digit : char.isDigit = true) :
    48 ≤ char.val.toNat ∧ char.val.toNat ≤ 57 := by
  rw [Char.isDigit, Bool.and_eq_true, decide_eq_true_eq, decide_eq_true_eq] at digit
  exact ⟨UInt32.le_iff_toNat_le.mp digit.1, UInt32.le_iff_toNat_le.mp digit.2⟩

theorem isDigit_of_mem_ofNat {number : Nat} {byte : UInt8} (among : byte ∈ ofNat number) :
    isDigit byte = true := by
  obtain ⟨char, digit, same⟩ := List.mem_map.mp among
  have range := toNat_of_isDigit (Nat.isDigit_of_mem_toDigits (by decide) (by decide) digit)
  have value : byte.toNat = char.val.toNat % 256 := by
    rw [← same]
    rfl
  rw [isDigit, Bool.and_eq_true, decide_eq_true_eq, decide_eq_true_eq, UInt8.le_iff_toNat_le,
    UInt8.le_iff_toNat_le, value]
  change 48 ≤ _ ∧ _ ≤ 57
  omega

theorem inWord_of_isDigit {byte : UInt8} (digit : isDigit byte = true) : inWord byte = true := by
  have apart : ∀ stop : UInt8, isDigit stop = false → byte ≠ stop := by
    intro stop other same
    rw [← same, digit] at other
    cases other
  simp [inWord, apart 0x20 rfl, apart 0x28 rfl, apart 0x29 rfl]

theorem ofNat_ne_nil (number : Nat) : ofNat number ≠ [] := by
  intro empty
  exact Nat.toDigits_ne_nil (List.map_eq_nil_iff.mp empty)

theorem ofNat_injective {number other : Nat} (same : ofNat number = ofNat other) :
    number = other := by
  have readBack : ∀ number, (ofNat number).map Char.ofUInt8 = Nat.toDigits 10 number := by
    intro number
    rw [ofNat, List.map_map]
    refine (List.map_congr_left ?_).trans (List.map_id _)
    intro char among
    have range := toNat_of_isDigit (Nat.isDigit_of_mem_toDigits (by decide) (by decide) among)
    apply Char.ext
    apply UInt32.toNat_inj.mp
    change char.val.toNat % 256 = char.val.toNat
    omega
  have digits : Nat.toDigits 10 number = Nat.toDigits 10 other := by
    rw [← readBack, ← readBack, same]
  have value : ∀ number, Nat.ofDigitChars 10 (Nat.toDigits 10 number) 0 = number := fun _ =>
    Nat.ofDigitChars_toDigits (by decide) (by decide)
  rw [← value number, digits, value]

theorem number_unique {number value : Nat} (stops : rest.takeWhile inWord = [])
    (otherStops : other.takeWhile inWord = [])
    (same : ofNat number ++ rest = ofNat value ++ other) : number = value ∧ rest = other := by
  obtain ⟨digits, rests⟩ := span_unique
    (fun _ among => inWord_of_isDigit (isDigit_of_mem_ofNat among))
    (fun _ among => inWord_of_isDigit (isDigit_of_mem_ofNat among)) stops otherStops same
  exact ⟨ofNat_injective digits, rests⟩

theorem takeWhile_blank (text : Text) : (" " ++ text : Text).takeWhile inWord = [] := rfl

/-! ## Lists -/

/-- Items that begin with an opening are told apart one by one, if what follows them does not begin
with it. What may follow an item is a condition on the rest. -/
theorem list_unique {α : Type} {write : α → Text} {related : α → α → Prop} {opening : Text}
    (follows : Text → Prop) {items others : List α}
    (opens : ∀ item, opening <+: write item) (goesOn : ∀ item rest, follows (write item ++ rest))
    (each : ∀ item ∈ items, ∀ value ∈ others, ∀ rest other, follows rest → follows other →
      write item ++ rest = write value ++ other → related item value ∧ rest = other)
    (followed : follows rest) (ends : ¬ opening <+: rest)
    (otherFollowed : follows other) (otherEnds : ¬ opening <+: other)
    (same : items.flatMap write ++ rest = others.flatMap write ++ other) :
    List.Forall₂ related items others ∧ rest = other := by
  have open_append : ∀ item tail, opening <+: write item ++ tail := fun item tail =>
    (opens item).trans (List.prefix_append _ _)
  have follows_append : ∀ (list : List α) {tail : Text}, follows tail →
      follows (list.flatMap write ++ tail) := by
    intro list tail atEnd
    cases list with
    | nil => exact atEnd
    | cons item list =>
        rw [List.flatMap_cons, List.append_assoc]
        exact goesOn item _
  induction items generalizing others with
  | nil =>
      cases others with
      | nil => exact ⟨.nil, same⟩
      | cons value others =>
          rw [List.flatMap_nil, List.nil_append, List.flatMap_cons, List.append_assoc] at same
          exact absurd (same ▸ open_append value _) ends
  | cons item items ih =>
      cases others with
      | nil =>
          rw [List.flatMap_nil, List.nil_append, List.flatMap_cons, List.append_assoc] at same
          exact absurd (same ▸ open_append item _) otherEnds
      | cons value others =>
          rw [List.flatMap_cons, List.flatMap_cons, List.append_assoc, List.append_assoc] at same
          obtain ⟨firsts, later⟩ := each item List.mem_cons_self value List.mem_cons_self _ _
            (follows_append items followed) (follows_append others otherFollowed) same
          obtain ⟨tails, rests⟩ := ih (fun one among two present =>
            each one (List.mem_cons_of_mem _ among) two (List.mem_cons_of_mem _ present)) later
          exact ⟨.cons firsts tails, rests⟩

end Text

/-! ## Value types -/

namespace ValType

theorem mem_named_of_isValid {type : ValType} (valid : type.isValid = true) :
    type ∈ named.map Prod.fst := by
  simp only [isValid, isNumber, isVector, isReference, Bool.or_eq_true, decide_eq_true_eq,
    List.mem_cons, List.not_mem_nil, or_false] at valid
  simp only [named, List.map_cons, List.map_nil, List.mem_cons, List.not_mem_nil, or_false]
  tauto

theorem inWord_of_mem_name {type : ValType} (valid : type.isValid = true) {byte : UInt8}
    (among : byte ∈ type.name) : Text.inWord byte = true := by
  have all : ∀ type ∈ named.map Prod.fst, ∀ byte ∈ type.name, Text.inWord byte = true := by
    decide +kernel
  exact all type (mem_named_of_isValid valid) byte among

theorem name_injective {type other : ValType} (valid : type.isValid = true)
    (otherValid : other.isValid = true) (same : type.name = other.name) : type = other := by
  have all : ∀ type ∈ named.map Prod.fst, ∀ other ∈ named.map Prod.fst,
      type.name = other.name → type = other := by decide
  exact all type (mem_named_of_isValid valid) other (mem_named_of_isValid otherValid) same

theorem exists_letter {type : ValType} (valid : type.isValid = true) : ∃ letter,
    type.name.head? = some letter ∧ Text.isDigit letter = false ∧ Text.inWord letter = true := by
  have all : ∀ type ∈ named.map Prod.fst,
      type.name.head?.any (fun byte => !Text.isDigit byte && Text.inWord byte) = true := by decide
  obtain ⟨letter, head, holds⟩ :=
    (Option.any_eq_true _ _).mp (all type (mem_named_of_isValid valid))
  rw [Bool.and_eq_true, Bool.not_eq_true'] at holds
  exact ⟨letter, head, holds⟩

/-- No text begins with a value type and with a number. -/
theorem name_append_ne {type : ValType} (valid : type.isValid = true) (number : Nat)
    (rest tail : Text) : type.name ++ rest ≠ Text.ofNat number ++ tail := by
  obtain ⟨letter, head, notDigit, _⟩ := exists_letter valid
  obtain ⟨digit, digits, shape⟩ := List.exists_cons_of_ne_nil (Text.ofNat_ne_nil number)
  have isDigit : Text.isDigit digit = true := by
    apply Text.isDigit_of_mem_ofNat
    rw [shape]
    exact List.mem_cons_self
  intro same
  have heads := congrArg List.head? same
  rw [List.head?_append, head, shape, List.cons_append, List.head?_cons, Option.some_or] at heads
  rw [Option.some.inj heads, isDigit] at notDigit
  cases notDigit

variable {type other : ValType} {types others : List ValType} {keyword rest tail : Text}

theorem name_unique (valid : type.isValid = true) (otherValid : other.isValid = true)
    (stops : rest.takeWhile Text.inWord = []) (otherStops : tail.takeWhile Text.inWord = [])
    (same : type.name ++ rest = other.name ++ tail) : type = other ∧ rest = tail := by
  obtain ⟨names, rests⟩ := Text.span_unique (fun _ => inWord_of_mem_name valid)
    (fun _ => inWord_of_mem_name otherValid) stops otherStops same
  exact ⟨name_injective valid otherValid names, rests⟩

theorem names_unique (valid : ∀ type ∈ types, type.isValid = true)
    (otherValid : ∀ type ∈ others, type.isValid = true)
    (same : types.flatMap (fun type => (" " ++ type.name : Text)) ++ (")" ++ rest) =
      others.flatMap (fun type => (" " ++ type.name : Text)) ++ (")" ++ tail)) :
    types = others ∧ rest = tail := by
  have ends : ∀ rest : Text, ¬ (" " : Text) <+: ")" ++ rest := by
    rintro rest ⟨_, found⟩
    cases found
  have opens : ∀ type : ValType, (" " : Text) <+: " " ++ type.name :=
    fun type => List.prefix_append _ _
  have goesOn : ∀ (type : ValType) (rest : Text),
      ((" " ++ type.name : Text) ++ rest).takeWhile Text.inWord = [] := fun _ _ => rfl
  have each : ∀ type ∈ types, ∀ other ∈ others, ∀ rest tail : Text,
      rest.takeWhile Text.inWord = [] → tail.takeWhile Text.inWord = [] →
      (" " ++ type.name : Text) ++ rest = " " ++ other.name ++ tail →
      type = other ∧ rest = tail := by
    intro type among other present rest tail stops otherStops same
    rw [List.append_assoc, List.append_assoc] at same
    exact name_unique (valid type among) (otherValid other present) stops otherStops
      (List.append_cancel_left same)
  obtain ⟨aligned, rests⟩ := Text.list_unique (·.takeWhile Text.inWord = []) opens goesOn each
    rfl (ends rest) rfl (ends tail) same
  exact ⟨List.forall₂_eq_eq_eq ▸ aligned, List.append_cancel_left rests⟩

/-- A group is told from what follows it, if that does not begin with the same keyword. -/
theorem group_unique (valid : ∀ type ∈ types, type.isValid = true)
    (otherValid : ∀ type ∈ others, type.isValid = true)
    (ends : ¬ (" (" ++ keyword : Text) <+: rest) (otherEnds : ¬ (" (" ++ keyword : Text) <+: tail)
    (same : group keyword types ++ rest = group keyword others ++ tail) :
    types = others ∧ rest = tail := by
  cases types with
  | nil =>
      cases others with
      | nil => exact ⟨rfl, same⟩
      | cons other others =>
          refine absurd ?_ ends
          change rest = _ at same
          rw [same, group]
          simp only [List.isEmpty_cons, Bool.false_eq_true, if_false, List.append_assoc]
          rw [← List.append_assoc]
          exact List.prefix_append _ _
  | cons type types =>
      cases others with
      | nil =>
          refine absurd ?_ otherEnds
          change _ = tail at same
          rw [← same, group]
          simp only [List.isEmpty_cons, Bool.false_eq_true, if_false, List.append_assoc]
          rw [← List.append_assoc]
          exact List.prefix_append _ _
      | cons other others =>
          simp only [group, List.isEmpty_cons, Bool.false_eq_true, if_false,
            List.append_assoc] at same
          exact names_unique valid otherValid
            (List.append_cancel_left (List.append_cancel_left same))

end ValType

theorem Limits.text_unique {limits other : Limits} {rest tail : Text}
    (stops : rest.takeWhile Text.inWord = []) (otherStops : tail.takeWhile Text.inWord = [])
    (noNumber : ∀ number more, rest ≠ " " ++ (Text.ofNat number ++ more))
    (otherNoNumber : ∀ number more, tail ≠ " " ++ (Text.ofNat number ++ more))
    (same : limits.text ++ rest = other.text ++ tail) : limits = other ∧ rest = tail := by
  obtain ⟨min, max⟩ := limits
  obtain ⟨otherMin, otherMax⟩ := other
  cases max with
  | none =>
      cases otherMax with
      | none =>
          simp only [text] at same
          obtain ⟨mins, rests⟩ := Text.number_unique stops otherStops same
          exact ⟨mins ▸ rfl, rests⟩
      | some otherMax =>
          simp only [text, List.append_assoc] at same
          have rests := (Text.number_unique stops (Text.takeWhile_blank _) same).2
          exact absurd rests (noNumber otherMax tail)
  | some max =>
      cases otherMax with
      | none =>
          simp only [text, List.append_assoc] at same
          have rests := (Text.number_unique (Text.takeWhile_blank _) otherStops same).2
          exact absurd rests.symm (otherNoNumber max rest)
      | some otherMax =>
          simp only [text, List.append_assoc] at same
          obtain ⟨mins, later⟩ :=
            Text.number_unique (Text.takeWhile_blank _) (Text.takeWhile_blank _) same
          obtain ⟨maxes, rests⟩ :=
            Text.number_unique stops otherStops (List.append_cancel_left later)
          exact ⟨mins ▸ maxes ▸ rfl, rests⟩

end Linkage

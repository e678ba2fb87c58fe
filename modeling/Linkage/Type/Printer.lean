import Linkage.Type.Basic

/-!
# Text of types

Entries are written in byte order of their names and each name once, so the order in which they
were given does not show. A type is written in front of what follows it, in time linear in the text;
`ItemType.text_inst` and `ItemType.text_module` give its text by the texts of its parts.
-/

set_option autoImplicit false

namespace Linkage

def Limits.text (limits : Limits) : Text :=
  match limits.max with
  | none => Text.ofNat limits.min
  | some max => Text.ofNat limits.min ++ " " ++ Text.ofNat max

/-- A parenthesised list of value types after a keyword; nothing if the list is empty. -/
def ValType.group (keyword : Text) (types : List ValType) : Text :=
  if types.isEmpty then [] else
    " (" ++ keyword ++ types.flatMap (fun type => (" " ++ type.name : Text)) ++ ")"

def FuncType.text (type : FuncType) : Text :=
  "(func" ++ ValType.group "param" type.params ++ ValType.group "result" type.results ++ ")"

def TableType.text (type : TableType) : Text :=
  "(table " ++ type.limits.text ++ " " ++ type.elem.name ++ ")"

def GlobalType.text (type : GlobalType) : Text :=
  if type.isMutable then "(global (mut " ++ type.content.name ++ "))"
  else "(global " ++ type.content.name ++ ")"

def CoreType.text : CoreType → Text
  | .func type => type.text
  | .table type => type.text
  | .memory limits => "(memory " ++ limits.text ++ ")"
  | .global type => type.text

def Entries.text (role : Role) (entries : List (Name × Text)) : Text :=
  entries.flatMap fun entry =>
    " (" ++ role.keyword ++ " " ++ Text.doubleQuoted entry.1 ++ " " ++ entry.2 ++ ")"

def Entries.write (role : Role) (entries : List (Name × (Text → Text))) (rest : Text) : Text :=
  entries.foldr (fun entry tail =>
    " (" ++ role.keyword ++ " " ++ Text.doubleQuoted entry.1 ++ " " ++ entry.2 (")" ++ tail)) rest

mutual

def ItemType.write : ItemType → Text → Text
  | .core type, rest => type.text ++ rest
  | .inst exports, rest =>
      "(instance" ++
        Entries.write .exports (Entries.sorted (ItemType.writers exports)) (")" ++ rest)
  | .module imports exports, rest =>
      "(module" ++
        Entries.write .imports (Entries.sorted (ItemType.writers imports))
          (Entries.write .exports (Entries.sorted (ItemType.writers exports)) (")" ++ rest))

def ItemType.writers : List (Name × ItemType) → List (Name × (Text → Text))
  | [] => []
  | (name, type) :: rest => (name, type.write) :: ItemType.writers rest

end

def ItemType.text (type : ItemType) : Text := type.write []

def ItemType.texts (entries : List (Name × ItemType)) : List (Name × Text) :=
  (Entries.sorted entries).map fun entry => (entry.1, entry.2.text)

theorem ItemType.writers_eq (entries : List (Name × ItemType)) :
    ItemType.writers entries = entries.map fun entry => (entry.1, entry.2.write) := by
  induction entries with
  | nil => rfl
  | cons entry rest ih => rw [ItemType.writers, ih, List.map_cons]

theorem Entries.write_eq {α : Type} (role : Role) (entries : List (Name × α))
    {write : α → Text → Text} {text : α → Text}
    (append : ∀ entry ∈ entries, ∀ rest, write entry.2 rest = text entry.2 ++ rest) (rest : Text) :
    Entries.write role (entries.map fun entry => (entry.1, write entry.2)) rest =
      Entries.text role (entries.map fun entry => (entry.1, text entry.2)) ++ rest := by
  induction entries with
  | nil => rfl
  | cons entry others ih =>
      have tail := ih fun other later => append other (List.mem_cons_of_mem _ later)
      simp only [Entries.write, Entries.text, List.map_cons, List.foldr_cons, List.flatMap_cons,
        append entry List.mem_cons_self, List.append_assoc] at tail ⊢
      rw [tail]

theorem ItemType.write_entries (role : Role) (entries : List (Name × ItemType))
    (append : ∀ entry ∈ entries, ∀ rest, entry.2.write rest = entry.2.text ++ rest) (rest : Text) :
    Entries.write role (Entries.sorted (ItemType.writers entries)) rest =
      Entries.text role (ItemType.texts entries) ++ rest := by
  rw [ItemType.writers_eq, Entries.sorted_map]
  exact Entries.write_eq role _
    (fun entry inside => append entry (Entries.mem_of_mem_sorted inside)) rest

mutual

/-- Writing in front of a text is appending that text. -/
theorem ItemType.write_eq : ∀ (type : ItemType) (rest : Text), type.write rest = type.text ++ rest
  | .core type, rest => by simp only [ItemType.text, ItemType.write, List.append_nil]
  | .inst exports, rest => by
      have append := ItemType.writers_append exports
      simp only [ItemType.text, ItemType.write, ItemType.write_entries _ _ append,
        List.append_assoc, List.append_nil]
  | .module imports exports, rest => by
      have appendImports := ItemType.writers_append imports
      have appendExports := ItemType.writers_append exports
      simp only [ItemType.text, ItemType.write, ItemType.write_entries _ _ appendImports,
        ItemType.write_entries _ _ appendExports, List.append_assoc, List.append_nil]

theorem ItemType.writers_append : ∀ entries : List (Name × ItemType), ∀ entry ∈ entries,
    ∀ rest, entry.2.write rest = entry.2.text ++ rest
  | [], _, inside, _ => absurd inside List.not_mem_nil
  | (_, type) :: others, entry, inside, rest => by
      rcases List.mem_cons.mp inside with first | later
      · subst first
        exact ItemType.write_eq type rest
      · exact ItemType.writers_append others entry later rest

end

theorem ItemType.text_core (type : CoreType) : (ItemType.core type).text = type.text := by
  simp only [ItemType.text, ItemType.write, List.append_nil]

theorem ItemType.text_inst (exports : List (Name × ItemType)) :
    (ItemType.inst exports).text =
      "(instance" ++ Entries.text .exports (ItemType.texts exports) ++ ")" := by
  simp only [ItemType.text, ItemType.write,
    ItemType.write_entries _ _ (ItemType.writers_append exports), List.append_assoc,
    List.append_nil]

theorem ItemType.text_module (imports exports : List (Name × ItemType)) :
    (ItemType.module imports exports).text =
      "(module" ++ Entries.text .imports (ItemType.texts imports) ++
        Entries.text .exports (ItemType.texts exports) ++ ")" := by
  simp only [ItemType.text, ItemType.write,
    ItemType.write_entries _ _ (ItemType.writers_append imports),
    ItemType.write_entries _ _ (ItemType.writers_append exports), List.append_assoc,
    List.append_nil]

def InstanceType.text (type : InstanceType) : Text := (ItemType.inst type).text

def ModuleType.text (type : ModuleType) : Text := (ItemType.ofModule type).text

end Linkage

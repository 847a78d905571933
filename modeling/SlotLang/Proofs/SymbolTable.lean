import SlotLang.Lowering.Basic

/-!
# The names declared along a program

The table of declared names changes along a program in a way that depends on
the program alone.  It is described here by itself, without directives and
without errors.  A table never loses an entry, and a slot belongs to one entry
of it as long as slots can be numbered in 32 bits.

* `SymbolTable` — the declared names, the latest first.
* `Statement.tableAfter` — the table after a statement.
* `SymbolTable.Numbered` — every entry has the slot of its turn.
-/

namespace SlotLang

/-- The names declared up to a place of a program, the latest first. -/
abbrev SymbolTable := List (String × Symbol)

/-- The table of a scope. -/
abbrev Scope.table (scope : Scope) : SymbolTable := scope.symbols

namespace SymbolTable

/-- The type of an expression, if its name is declared. -/
def typeOf? (table : SymbolTable) : Expression → Option ValueType
  | .string _ _ => some .string
  | .integer _ _ => some .int
  | .name name _ => (table.lookup name).map Symbol.type
  | .binary _ _ _ _ => none

/-- The table with one more name, which has the next slot. -/
def declare (name : String) (type : ValueType) (table : SymbolTable) : SymbolTable :=
  (name, ⟨UInt32.ofNat table.length, type⟩) :: table

/-- The table after the declaration of a name with its first value. -/
def declareValue (name : String) (value : Expression) (table : SymbolTable) : SymbolTable :=
  match table.typeOf? value with
  | some type => table.declare name type
  | none => table

/-- The table in which the index of a loop is declared. -/
def declareIndex (index : String) (table : SymbolTable) : SymbolTable :=
  match table.lookup index with
  | some _ => table
  | none => table.declare index .int

/-- The types of the slots, in the order of their declaration. -/
def types (table : SymbolTable) : List ValueType :=
  table.reverse.map fun entry => entry.2.type

end SymbolTable

/-- The table after a statement. -/
def Statement.tableAfter : Statement → SymbolTable → SymbolTable
  | sequence first second _, table => second.tableAfter (first.tableAfter table)
  | declare name value _, table => table.declareValue name value
  | assign _ _ _, table => table
  | print _ _, table => table
  | readInt _ _, table => table
  | forLoop index _ _ body _, table => body.tableAfter (table.declareIndex index)

/-! ## Lookups -/

namespace SymbolTable

theorem mem_of_lookup {table : SymbolTable} {name : String} {symbol : Symbol}
    (hlookup : table.lookup name = some symbol) : (name, symbol) ∈ table := by
  obtain ⟨before, after, rfl, -⟩ := List.lookup_eq_some_iff.mp hlookup
  simp

theorem lookup_declare_of_ne (table : SymbolTable) {name other : String} (type : ValueType)
    (hne : other ≠ name) : (table.declare name type).lookup other = table.lookup other := by
  rw [declare, List.lookup_cons, beq_eq_false_iff_ne.mpr hne]

theorem lookup_declareValue_of_ne (table : SymbolTable) {name other : String}
    (value : Expression) (hne : other ≠ name) :
    (table.declareValue name value).lookup other = table.lookup other := by
  unfold declareValue
  split
  · exact table.lookup_declare_of_ne _ hne
  · rfl

theorem lookup_declareIndex_of_ne (table : SymbolTable) {index other : String}
    (hne : other ≠ index) : (table.declareIndex index).lookup other = table.lookup other := by
  unfold declareIndex
  split
  · rfl
  · exact table.lookup_declare_of_ne _ hne

theorem suffix_declare (table : SymbolTable) (name : String) (type : ValueType) :
    table <:+ table.declare name type :=
  List.suffix_cons _ _

theorem suffix_declareValue (table : SymbolTable) (name : String) (value : Expression) :
    table <:+ table.declareValue name value := by
  unfold declareValue
  split
  · exact table.suffix_declare name _
  · exact List.suffix_refl table

theorem suffix_declareIndex (table : SymbolTable) (index : String) :
    table <:+ table.declareIndex index := by
  unfold declareIndex
  split
  · exact List.suffix_refl table
  · exact table.suffix_declare index _

end SymbolTable

/-- A statement only adds to the table. -/
theorem Statement.suffix_tableAfter (statement : Statement) (table : SymbolTable) :
    table <:+ statement.tableAfter table := by
  induction statement generalizing table with
  | sequence first second span ihfirst ihsecond =>
      exact (ihfirst table).trans (ihsecond (first.tableAfter table))
  | declare name value span => exact table.suffix_declareValue name value
  | assign name value span => exact List.suffix_refl table
  | print value span => exact List.suffix_refl table
  | readInt name span => exact List.suffix_refl table
  | forLoop index lower upper body span ih =>
      exact (table.suffix_declareIndex index).trans (ih (table.declareIndex index))

/-! ## Numbering -/

namespace SymbolTable

/-- Every entry has the number of the entries before it for its slot. -/
def Numbered : SymbolTable → Prop
  | [] => True
  | (_, symbol) :: rest => symbol.slot = UInt32.ofNat rest.length ∧ Numbered rest

theorem Numbered.declare {table : SymbolTable} (hnumbered : table.Numbered) (name : String)
    (type : ValueType) : (table.declare name type).Numbered :=
  ⟨rfl, hnumbered⟩

theorem Numbered.declareValue {table : SymbolTable} (hnumbered : table.Numbered)
    (name : String) (value : Expression) : (table.declareValue name value).Numbered := by
  unfold SymbolTable.declareValue
  split
  · exact hnumbered.declare name _
  · exact hnumbered

theorem Numbered.declareIndex {table : SymbolTable} (hnumbered : table.Numbered)
    (index : String) : (table.declareIndex index).Numbered := by
  unfold SymbolTable.declareIndex
  split
  · exact hnumbered
  · exact hnumbered.declare index _

theorem Numbered.tableAfter {table : SymbolTable} (hnumbered : table.Numbered)
    (statement : Statement) : (statement.tableAfter table).Numbered := by
  induction statement generalizing table with
  | sequence first second span ihfirst ihsecond => exact ihsecond (ihfirst hnumbered)
  | declare name value span => exact hnumbered.declareValue name value
  | assign name value span => exact hnumbered
  | print value span => exact hnumbered
  | readInt name span => exact hnumbered
  | forLoop index lower upper body span ih => exact ih (hnumbered.declareIndex index)

@[simp] theorem length_types (table : SymbolTable) : table.types.length = table.length := by
  simp [types]

@[simp] theorem types_declare (table : SymbolTable) (name : String) (type : ValueType) :
    (table.declare name type).types = table.types ++ [type] := by
  simp [types, declare]

/-- The slots of a numbered table are the indices below its length. -/
theorem Numbered.slot_lt {table : SymbolTable} (hnumbered : table.Numbered)
    (hlength : table.length ≤ UInt32.size) {entry : String × Symbol} (hentry : entry ∈ table) :
    entry.2.slot.toNat < table.length := by
  induction table with
  | nil => cases hentry
  | cons first rest ih =>
      obtain ⟨hslot, hrest⟩ := hnumbered
      rw [List.length_cons] at hlength ⊢
      cases hentry with
      | head =>
          rw [hslot, UInt32.toNat_ofNat_of_lt' (by omega)]
          omega
      | tail _ hentry =>
          have hlt := ih hrest (by omega) hentry
          omega

/-- Under the slot of an entry stands the type of the entry. -/
theorem Numbered.getElem?_types {table : SymbolTable} (hnumbered : table.Numbered)
    (hlength : table.length ≤ UInt32.size) {entry : String × Symbol} (hentry : entry ∈ table) :
    table.types[entry.2.slot.toNat]? = some entry.2.type := by
  induction table with
  | nil => cases hentry
  | cons first rest ih =>
      obtain ⟨hslot, hrest⟩ := hnumbered
      rw [List.length_cons] at hlength
      have htypes : types (first :: rest) = types rest ++ [first.2.type] := by
        simp [types]
      rw [htypes]
      cases hentry with
      | head =>
          rw [hslot, UInt32.toNat_ofNat_of_lt' (by omega), ← length_types rest]
          simp
      | tail _ hentry =>
          have hlt := hrest.slot_lt (by omega) hentry
          rw [List.getElem?_append_left (by simpa using hlt)]
          exact ih hrest (by omega) hentry

/-- Two entries of a numbered table do not share a slot. -/
theorem Numbered.eq_of_slot_eq {table : SymbolTable} (hnumbered : table.Numbered)
    (hlength : table.length ≤ UInt32.size) {a b : String × Symbol}
    (ha : a ∈ table) (hb : b ∈ table) (hslot : a.2.slot = b.2.slot) : a = b := by
  induction table with
  | nil => cases ha
  | cons first rest ih =>
      obtain ⟨hfirst, hrest⟩ := hnumbered
      rw [List.length_cons] at hlength
      -- The slot of the newest entry is above all the others.
      have hfirstSlot : first.2.slot.toNat = rest.length := by
        rw [hfirst, UInt32.toNat_ofNat_of_lt' (by omega)]
      cases ha with
      | head =>
          cases hb with
          | head => rfl
          | tail _ hb =>
              have hlt := hrest.slot_lt (by omega) hb
              rw [← hslot, hfirstSlot] at hlt
              omega
      | tail _ ha =>
          cases hb with
          | head =>
              have hlt := hrest.slot_lt (by omega) ha
              rw [hslot, hfirstSlot] at hlt
              omega
          | tail _ hb => exact ih hrest (by omega) ha hb

end SymbolTable

end SlotLang

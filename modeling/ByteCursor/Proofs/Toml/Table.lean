import ByteCursor.Toml.Document
import Mathlib.Data.List.Nodup

/-!
# Names in tables

Every change of a table goes through giving one value to one name, so the names of a table stay
distinct.  What a document says under a name is therefore an entry of its table, wherever it
stands in it.

Entries without dots in their keys are the table themselves, unless one of their names comes twice.
-/

namespace ByteCursor.Toml

namespace Table

/-- The names of a table. -/
def names (table : Table) : List String := table.map Prod.fst

variable {table changed : Table} {name query : String} {value : Value}

@[simp] theorem names_cons (entry : String × Value) (table : Table) :
    names (entry :: table) = entry.1 :: names table := rfl

@[simp] theorem names_append (first second : Table) :
    names (first ++ second) = names first ++ names second := List.map_append

theorem mem_names_of_mem (member : (name, value) ∈ table) : name ∈ table.names :=
  List.mem_map_of_mem member

theorem lookup_cons_of_ne (different : query ≠ name) (value : Value) (table : Table) :
    List.lookup query ((name, value) :: table) = table.lookup query := by
  rw [List.lookup_cons, beq_eq_false_iff_ne.mpr different]

/-- A name that does not come up has no value. -/
theorem lookup_eq_none_iff : table.lookup name = none ↔ name ∉ table.names := by
  induction table with
  | nil => exact iff_of_true rfl List.not_mem_nil
  | cons entry rest ih =>
      obtain ⟨other, old⟩ := entry
      rw [names_cons, List.mem_cons, not_or, ← ih]
      by_cases same : name = other
      · subst same
        rw [List.lookup_cons_self]
        exact iff_of_false nofun fun absent => absent.1 rfl
      · rw [lookup_cons_of_ne same, and_iff_right same]

/-- Where names are distinct, a value is looked up under a name if the two are an entry. -/
theorem lookup_eq_some_iff (distinct : table.names.Nodup) :
    table.lookup name = some value ↔ (name, value) ∈ table := by
  induction table with
  | nil => exact iff_of_false nofun List.not_mem_nil
  | cons entry rest ih =>
      obtain ⟨other, old⟩ := entry
      rw [names_cons, List.nodup_cons] at distinct
      rw [List.mem_cons]
      by_cases same : name = other
      · subst same
        rw [List.lookup_cons_self, Option.some_inj, Prod.mk.injEq, and_iff_right rfl]
        constructor
        · exact fun valueEq => .inl valueEq.symm
        · rintro (valueEq | member)
          · exact valueEq.symm
          · exact absurd (mem_names_of_mem member) distinct.1
      · rw [lookup_cons_of_ne same, ih distinct.2, or_iff_right]
        exact fun entryEq => same (congrArg Prod.fst entryEq)

/-- A new name comes behind the others. -/
theorem set_of_not_mem (absent : name ∉ table.names) :
    set name value table = table ++ [(name, value)] := by
  induction table with
  | nil => rfl
  | cons entry rest ih =>
      obtain ⟨other, old⟩ := entry
      rw [names_cons, List.mem_cons, not_or] at absent
      rw [set, if_neg (Ne.symm absent.1), ih absent.2, List.cons_append]

/-- A change of tables gives a value to a name. -/
def Sets (edit : Table → Option Table) : Prop :=
  ∀ table changed, edit table = some changed → ∃ name value, changed = set name value table

/-- An inner value is made first and then given to a name. -/
theorem exists_set_of_bind {α : Type} {inner : Option α} {make : α → Value}
    (made : (inner.bind fun part => some (set name (make part) table)) = some changed) :
    ∃ name value, changed = set name value table := by
  obtain ⟨part, -, changedEq⟩ := Option.bind_eq_some_iff.mp made
  exact ⟨name, make part, (Option.some_inj.mp changedEq).symm⟩

/-- What changes an inner table gives this table to its name in the outer one. -/
theorem Sets.within {edit : Table → Option Table} (sets : Sets edit) (path : List String) :
    Sets (within edit path) := by
  intro table changed edited
  cases path with
  | nil => exact sets table changed edited
  | cons parent rest =>
      rw [Table.within] at edited
      split at edited
      next => exact exists_set_of_bind edited
      next => exact exists_set_of_bind edited

end Table

/-- The statement of a value under a name. -/
def Statement.plain (entry : String × Value) : Statement :=
  .entry { key := { parents := [], name := entry.1 }, value := entry.2 }

theorem Draft.add_plain (entry : String × Value) (root : Table) :
    Draft.add { root := root } (.plain entry) =
      if entry.1 ∈ root.names then none else some { root := root ++ [entry] } := by
  have added : Draft.add { root := root } (.plain entry) =
      (if (root.lookup entry.1).isSome then none
        else some (Table.set entry.1 entry.2 root)).bind
          fun changed => some { root := changed } := rfl
  have known : (root.lookup entry.1).isSome = true ↔ entry.1 ∈ root.names := by
    rw [Option.isSome_iff_ne_none, ne_eq, Table.lookup_eq_none_iff, not_not]
  rw [added]
  by_cases present : entry.1 ∈ root.names
  · rw [if_pos (known.mpr present), if_pos present, Option.bind_none]
  · rw [if_neg (known.not.mpr present), if_neg present, Option.bind_some,
      Table.set_of_not_mem present]

/-- Entries come behind each other up to the first name that is there already. -/
theorem Draft.foldlM_plain (entries : List (String × Value)) {root : Table}
    (distinct : root.names.Nodup) :
    (entries.map Statement.plain).foldlM Draft.add { root := root } =
      if (Table.names (root ++ entries)).Nodup then some { root := root ++ entries } else none := by
  induction entries generalizing root with
  | nil => rw [List.append_nil, if_pos distinct, List.map_nil, List.foldlM_nil]; rfl
  | cons entry entries ih =>
      rw [List.map_cons, List.foldlM_cons, Draft.add_plain]
      by_cases present : entry.1 ∈ root.names
      · have repeated : ¬ (Table.names (root ++ entry :: entries)).Nodup := by
          rw [Table.names_append, List.nodup_append]
          rintro ⟨-, -, apart⟩
          exact apart _ present _ List.mem_cons_self rfl
        rw [if_pos present, if_neg repeated]
        rfl
      · have longer : (Table.names (root ++ [entry])).Nodup := by
          rw [Table.names_append, List.nodup_append_comm]
          exact List.nodup_cons.mpr ⟨present, distinct⟩
        have later := ih longer
        rw [List.append_assoc, List.singleton_append] at later
        rw [if_neg present]
        exact later

/-- Entries without dots build the table of these entries if their names are distinct. -/
theorem Table.ofStatements?_plain (entries : List (String × Value)) :
    Table.ofStatements? (entries.map Statement.plain) =
      if (Table.names entries).Nodup then some entries else none := by
  have built : Table.ofStatements? (entries.map Statement.plain) =
      ((entries.map Statement.plain).foldlM Draft.add { root := [] }).bind
        fun draft => some draft.root := rfl
  have distinct : (Table.names []).Nodup := List.nodup_nil
  rw [built, Draft.foldlM_plain entries distinct, List.nil_append]
  split
  next => rfl
  next => rfl

end ByteCursor.Toml

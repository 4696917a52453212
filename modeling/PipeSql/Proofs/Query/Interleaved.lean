import PipeSql.Proofs.Query.Meaning

set_option autoImplicit false

namespace PipeSql

namespace Except

variable {ε α β : Type} {f : α → Except ε β}

theorem map_append {first second : List α} {left right : List β} (begun : first.mapM f = .ok left)
    (ended : second.mapM f = .ok right) : (first ++ second).mapM f = .ok (left ++ right) := by
  rw [List.mapM_append, begun, ended]
  rfl

theorem map_single {value : α} {result : β} (done : f value = .ok result) : [value].mapM f = .ok [result] := by
  rw [List.mapM_cons, done]
  rfl

end Except

theorem intercalate_snoc {α : Type} (separator : List α) {groups : List (List α)} (filled : groups ≠ [])
    (last : List α) : separator.intercalate (groups ++ [last]) = separator.intercalate groups ++ separator ++ last := by
  induction groups with
  | nil => exact absurd rfl filled
  | cons first rest ih =>
    cases rest with
    | nil => simp [List.intercalate_cons_cons]
    | cons second rest =>
      rw [List.cons_append, List.cons_append, List.intercalate_cons_cons, List.intercalate_cons_cons,
        ← List.cons_append, ih (List.cons_ne_nil _ _)]
      simp only [List.append_assoc]

theorem intercalate_filled {α : Type} (separator : List α) {first : List α} (filled : first ≠ [])
    (rest : List (List α)) : separator.intercalate (first :: rest) ≠ [] := by
  cases rest with
  | nil => simpa using filled
  | cons second rest => simp [List.intercalate_cons_cons, filled]

theorem Formula.conditions_filled {formula : Formula} {conditions : List (Condition Column)}
    (done : formula.conditions = .ok conditions) : conditions ≠ [] := by
  obtain ⟨sql, _, rfl⟩ := Except.map_ok done
  split <;> exact List.cons_ne_nil _ _

namespace QueryOp

inductive Kind where
  | filter | select | order | take | skip | distinct | groupBy
deriving DecidableEq, Repr

def kind : QueryOp → Kind
  | .filter _ => .filter
  | .select _ => .select
  | .orderBy _ _ | .thenBy _ _ => .order
  | .take _ => .take
  | .skip _ => .skip
  | .distinct => .distinct
  | .groupBy _ => .groupBy

-- A sort key, and whether the ordering starts with it.
structure SortKey where
  starts : Bool
  key : Formula
  direction : SortDirection

namespace SortKey

def item (key : SortKey) : Except Formula.Fault OrderItem :=
  key.key.orderItem key.direction

-- What stands in front of a key that starts the ordering does not count.
def current : List SortKey → List SortKey
  | [] => []
  | key :: rest => if rest.any starts then current rest else key :: rest

theorem current_started (keys : List SortKey) {key : SortKey} (starts : key.starts = true) :
    current (keys ++ [key]) = [key] := by
  induction keys with
  | nil => rfl
  | cons first rest ih =>
    rw [List.cons_append, current, if_pos (by simp [starts]), ih]

theorem current_continued (keys : List SortKey) {key : SortKey} (continues : key.starts = false) :
    current (keys ++ [key]) = current keys ++ [key] := by
  induction keys with
  | nil => rfl
  | cons first rest ih =>
    rw [List.cons_append, current, current, List.any_append, List.any_cons, List.any_nil, continues, Bool.false_or,
      Bool.or_false]
    split
    · exact ih
    · rfl

end SortKey

def projection? : QueryOp → Option (List Formula)
  | .select columns => some columns
  | _ => none

def sortKey? : QueryOp → Option SortKey
  | .orderBy key direction => some ⟨true, key, direction⟩
  | .thenBy key direction => some ⟨false, key, direction⟩
  | _ => none

def limit? : QueryOp → Option Nat
  | .take count => some count
  | _ => none

def offset? : QueryOp → Option Nat
  | .skip count => some count
  | _ => none

def grouping? : QueryOp → Option (List Formula)
  | .groupBy keys => some keys
  | _ => none

-- The operations of a query, each kind by itself.
structure Parts where
  restrictions : List Formula
  projections : List (List Formula)
  sortKeys : List SortKey
  limits : List Nat
  offsets : List Nat
  distinct : Bool
  groupings : List (List Formula)

namespace Parts

def ofOps (ops : List QueryOp) : Parts where
  restrictions := ops.filterMap restriction?
  projections := ops.filterMap projection?
  sortKeys := ops.filterMap sortKey?
  limits := ops.filterMap limit?
  offsets := ops.filterMap offset?
  distinct := ops.contains .distinct
  groupings := ops.filterMap grouping?

def add (parts : Parts) : QueryOp → Parts
  | .filter predicate => { parts with restrictions := parts.restrictions ++ [predicate.body] }
  | .select columns => { parts with projections := parts.projections ++ [columns] }
  | .orderBy key direction => { parts with sortKeys := parts.sortKeys ++ [⟨true, key, direction⟩] }
  | .thenBy key direction => { parts with sortKeys := parts.sortKeys ++ [⟨false, key, direction⟩] }
  | .take count => { parts with limits := parts.limits ++ [count] }
  | .skip count => { parts with offsets := parts.offsets ++ [count] }
  | .distinct => { parts with distinct := true }
  | .groupBy keys => { parts with groupings := parts.groupings ++ [keys] }

theorem of_ops_snoc (ops : List QueryOp) (op : QueryOp) : ofOps (ops ++ [op]) = (ofOps ops).add op := by
  cases op <;> simp [ofOps, add, restriction?, projection?, sortKey?, limit?, offset?, grouping?, List.contains_eq_mem]

-- A statement that is put together from the parts of a query.
structure Assembled (table : String) (parts : Parts) (statement : Statement) : Prop where
  restricted : ∃ groups, parts.restrictions.mapM Formula.conditions = .ok groups ∧ (∀ group ∈ groups, group ≠ []) ∧
    statement.conditions = [.and].intercalate groups
  projected : (parts.projections.getLast?.getD []).mapM Formula.column = .ok statement.columns
  ordered : (SortKey.current parts.sortKeys).mapM SortKey.item = .ok statement.orderBy
  limited : statement.limit = parts.limits.getLast?.map toString
  skipped : statement.offset = parts.offsets.getLast?.map toString
  distinct : statement.distinct = parts.distinct
  grouped : parts.groupings.flatten.mapM Formula.column = .ok statement.groupBy
  tables : statement.tables = [.named table]
  parameters : statement.parameters = []
  joins : statement.joins = []
  having : statement.having = none
  unions : statement.unions = []
  insert : statement.insert = none

theorem assembled_base (table : String) : Assembled table (ofOps []) (Statement.empty.withBase (.named table)) where
  restricted := ⟨[], rfl, by simp, rfl⟩
  projected := rfl
  ordered := rfl
  limited := rfl
  skipped := rfl
  distinct := rfl
  grouped := rfl
  tables := rfl
  parameters := rfl
  joins := rfl
  having := rfl
  unions := rfl
  insert := rfl

variable {table : String} {parts : Parts} {statement result : Statement}

theorem restrict_assembled {formula : Formula} {conditions : List (Condition Column)}
    (assembled : Assembled table parts statement) (done : formula.conditions = .ok conditions) :
    ∃ groups, (parts.restrictions ++ [formula]).mapM Formula.conditions = .ok groups ∧ (∀ group ∈ groups, group ≠ []) ∧
      (statement.restrict conditions).conditions = [.and].intercalate groups := by
  obtain ⟨groups, lowered, filled, joined⟩ := assembled.restricted
  have nonempty := Formula.conditions_filled done
  refine ⟨groups ++ [conditions], Except.map_append lowered (Except.map_single done), ?_, ?_⟩
  · intro group member
    rcases List.mem_append.1 member with member | member
    · exact filled group member
    · rwa [List.mem_singleton.1 member]
  · rw [Statement.restrict]
    cases groups with
    | nil =>
      rw [joined]
      simp
    | cons first rest =>
      have started : statement.conditions.isEmpty = false := by
        rw [joined, List.isEmpty_eq_false_iff]
        exact intercalate_filled _ (filled first (.head _)) rest
      rw [started, intercalate_snoc _ (List.cons_ne_nil _ _), ← joined]
      simp

-- Each operation adds to the part of its own kind and leaves the others as they are.
theorem add_assembled (op : QueryOp) (assembled : Assembled table parts statement)
    (done : op.apply statement = .ok result) : Assembled table (parts.add op) result := by
  cases op with
  | filter predicate =>
    obtain ⟨conditions, lowered, rfl⟩ := Except.map_ok done
    exact { assembled with restricted := restrict_assembled assembled lowered }
  | select columns =>
    obtain ⟨written, lowered, rfl⟩ := Except.map_ok done
    refine { assembled with projected := ?_ }
    rw [add, List.getLast?_concat]
    exact lowered
  | orderBy key direction =>
    obtain ⟨item, lowered, rfl⟩ := Except.map_ok done
    refine { assembled with ordered := ?_ }
    rw [add, SortKey.current_started _ rfl]
    exact Except.map_single lowered
  | thenBy key direction =>
    obtain ⟨item, lowered, rfl⟩ := Except.map_ok done
    refine { assembled with ordered := ?_ }
    rw [add, SortKey.current_continued _ rfl]
    exact Except.map_append assembled.ordered (Except.map_single lowered)
  | take count =>
    cases done
    refine { assembled with limited := ?_ }
    rw [add, List.getLast?_concat]
    rfl
  | skip count =>
    cases done
    refine { assembled with skipped := ?_ }
    rw [add, List.getLast?_concat]
    rfl
  | distinct =>
    cases done
    exact { assembled with distinct := rfl }
  | groupBy keys =>
    obtain ⟨written, lowered, rfl⟩ := Except.map_ok done
    refine { assembled with grouped := ?_ }
    rw [add, List.flatten_append, List.flatten_singleton]
    exact Except.map_append assembled.grouped lowered

theorem run_assembled (ops done : List QueryOp) (assembled : Assembled table (ofOps done) statement)
    (finished : ops.foldlM QueryOp.apply statement = .ok result) : Assembled table (ofOps (done ++ ops)) result := by
  induction ops generalizing done statement with
  | nil =>
    cases finished
    rwa [List.append_nil]
  | cons op rest ih =>
    rw [List.foldlM_cons] at finished
    obtain ⟨next, applied, finished⟩ := Except.bind_ok finished
    have stepped := add_assembled op assembled applied
    rw [← of_ops_snoc] at stepped
    have continued := ih (done ++ [op]) stepped finished
    rwa [List.append_assoc] at continued

theorem statement_assembled {ops : List QueryOp} (built : (Query.mk table ops).statement = .ok statement) :
    Assembled table (ofOps ops) statement :=
  run_assembled ops [] (assembled_base table) built

-- The parts say all about the statement.
theorem assembled_unique (first : Assembled table parts statement) (second : Assembled table parts result) :
    statement = result := by
  obtain ⟨groups, lowered, -, joined⟩ := first.restricted
  obtain ⟨others, again, -, rejoined⟩ := second.restricted
  cases lowered.symm.trans again
  have columns := Except.ok.inj (first.projected.symm.trans second.projected)
  have orderBy := Except.ok.inj (first.ordered.symm.trans second.ordered)
  have groupBy := Except.ok.inj (first.grouped.symm.trans second.grouped)
  cases statement
  cases result
  rw [Select.mk.injEq]
  exact ⟨columns, first.tables.trans second.tables.symm, first.parameters.trans second.parameters.symm,
    first.joins.trans second.joins.symm, joined.trans rejoined.symm, groupBy, orderBy,
    first.having.trans second.having.symm, first.limited.trans second.limited.symm,
    first.skipped.trans second.skipped.symm, first.distinct.trans second.distinct.symm,
    first.unions.trans second.unions.symm, first.insert.trans second.insert.symm⟩

end Parts

-- Both chains have the same operations of each kind, in the same order.
def Interleaved (ops others : List QueryOp) : Prop :=
  ∀ kind, ops.filter (fun op => op.kind = kind) = others.filter fun op => op.kind = kind

section

variable {ops others : List QueryOp}

theorem interleaved_symm (same : Interleaved ops others) : Interleaved others ops :=
  fun kind => (same kind).symm

theorem interleaved_mem (same : Interleaved ops others) (op : QueryOp) : op ∈ ops ↔ op ∈ others := by
  have kept : op ∈ ops.filter (fun other => other.kind = op.kind) ↔
      op ∈ others.filter fun other => other.kind = op.kind := by
    rw [same]
  simpa using kept

theorem interleaved_parts {β : Type} (same : Interleaved ops others) (kind : Kind) (part? : QueryOp → Option β)
    (only : ∀ op part, part? op = some part → op.kind = kind) : ops.filterMap part? = others.filterMap part? := by
  have chosen : ∀ chain : List QueryOp,
      chain.filterMap part? = (chain.filter fun op => op.kind = kind).filterMap part? := by
    intro chain
    rw [List.filterMap_filter]
    apply List.filterMap_congr
    intro op _
    cases found : part? op with
    | none => simp
    | some part => simp [only op part found]
  rw [chosen ops, chosen others, same]

theorem interleaved_of_ops (same : Interleaved ops others) : Parts.ofOps ops = Parts.ofOps others := by
  have restrictions := interleaved_parts same .filter restriction? fun op part found => by
    cases op <;> cases found
    rfl
  have projections := interleaved_parts same .select projection? fun op part found => by
    cases op <;> cases found
    rfl
  have sortKeys := interleaved_parts same .order sortKey? fun op part found => by
    cases op <;> cases found <;> rfl
  have limits := interleaved_parts same .take limit? fun op part found => by
    cases op <;> cases found
    rfl
  have offsets := interleaved_parts same .skip offset? fun op part found => by
    cases op <;> cases found
    rfl
  have groupings := interleaved_parts same .groupBy grouping? fun op part found => by
    cases op <;> cases found
    rfl
  have distinct : ops.contains .distinct = others.contains .distinct := by
    rw [List.contains_eq_mem, List.contains_eq_mem]
    exact decide_eq_decide.2 (interleaved_mem same .distinct)
  rw [Parts.ofOps, Parts.ofOps, restrictions, projections, sortKeys, limits, offsets, distinct, groupings]

end

-- Whether an operation can be carried out does not depend on the statement.
theorem apply_anywhere (op : QueryOp) {statement result : Statement} (done : op.apply statement = .ok result)
    (other : Statement) : ∃ next, op.apply other = .ok next := by
  cases op with
  | filter _ | select _ | orderBy _ _ | thenBy _ _ | groupBy _ =>
    obtain ⟨written, lowered, -⟩ := Except.map_ok done
    exact ⟨_, by rw [apply, lowered]; rfl⟩
  | take count | skip count | distinct => exact ⟨_, rfl⟩

theorem run_applies (ops : List QueryOp) {statement result : Statement}
    (finished : ops.foldlM QueryOp.apply statement = .ok result) :
    ∀ op ∈ ops, ∃ before after, op.apply before = .ok after := by
  induction ops generalizing statement with
  | nil => simp
  | cons first rest ih =>
    rw [List.foldlM_cons] at finished
    obtain ⟨next, applied, finished⟩ := Except.bind_ok finished
    intro op member
    rcases List.mem_cons.1 member with rfl | member
    · exact ⟨statement, next, applied⟩
    · exact ih finished op member

theorem run_finishes (ops : List QueryOp) (applies : ∀ op ∈ ops, ∃ before after, op.apply before = .ok after)
    (statement : Statement) : ∃ result, ops.foldlM QueryOp.apply statement = .ok result := by
  induction ops generalizing statement with
  | nil => exact ⟨statement, rfl⟩
  | cons first rest ih =>
    obtain ⟨before, after, applied⟩ := applies first (.head _)
    obtain ⟨next, applied⟩ := apply_anywhere first applied statement
    obtain ⟨result, finished⟩ := ih (fun op member => applies op (.tail _ member)) next
    refine ⟨result, ?_⟩
    rw [List.foldlM_cons, applied]
    exact finished

theorem interleaved_finishes {ops others : List QueryOp} (same : Interleaved ops others) {statement result : Statement}
    (finished : ops.foldlM QueryOp.apply statement = .ok result) (other : Statement) :
    ∃ next, others.foldlM QueryOp.apply other = .ok next :=
  run_finishes others (fun op member => run_applies ops finished op ((interleaved_mem same op).2 member)) other

end QueryOp

open QueryOp

theorem interleaved_queries_agree (table : String) (ops others : List QueryOp) (same : Interleaved ops others) :
    ((∃ statement, (Query.mk table ops).statement = .ok statement ∧
        (Query.mk table others).statement = .ok statement) ∨
      ∃ fault second, (Query.mk table ops).statement = .error fault ∧
        (Query.mk table others).statement = .error second) ∧
    ∀ statement, (Query.mk table ops).statement = .ok statement →
      (SortKey.current (ops.filterMap sortKey?)).mapM SortKey.item = .ok statement.orderBy ∧
      ((ops.filterMap projection?).getLast?.getD []).mapM Formula.column = .ok statement.columns ∧
      statement.limit = (ops.filterMap limit?).getLast?.map toString ∧
      statement.offset = (ops.filterMap offset?).getLast?.map toString ∧
      (ops.filterMap grouping?).flatten.mapM Formula.column = .ok statement.groupBy := by
  constructor
  · cases built : (Query.mk table ops).statement with
    | ok statement =>
      obtain ⟨result, rebuilt⟩ := interleaved_finishes same built (Statement.empty.withBase (.named table))
      have first := Parts.statement_assembled built
      rw [interleaved_of_ops same] at first
      have equal := Parts.assembled_unique first (Parts.statement_assembled rebuilt)
      exact .inl ⟨statement, rfl, equal ▸ rebuilt⟩
    | error fault =>
      cases rebuilt : (Query.mk table others).statement with
      | error second => exact .inr ⟨fault, second, rfl, rfl⟩
      | ok statement =>
        obtain ⟨result, again⟩ := interleaved_finishes (interleaved_symm same) rebuilt
          (Statement.empty.withBase (.named table))
        cases built.symm.trans again
  · intro statement built
    have assembled := Parts.statement_assembled built
    exact ⟨assembled.ordered, assembled.projected, assembled.limited, assembled.skipped, assembled.grouped⟩

-- The second ordering takes the place of the first one, and so do the second projection and the second limit.
theorem sorted_operations_agree :
    let column := fun name => Formula.member (.parameter "x") name
    let first : QueryOp := .filter ⟨"x", .binary .or (column "a") (column "b")⟩
    let second : QueryOp := .filter ⟨"y", .constant (.bool true)⟩
    let ops := [.take 9, .orderBy (column "a") .asc, first, .select [column "a"], .thenBy (column "b") .asc,
      .groupBy [column "a"], .orderBy (column "c") .desc, .skip 2, .distinct, second, .thenBy (column "d") .asc,
      .groupBy [column "b", column "c"], .take 5, .select [column "c", .against .less (column "d") (.int 3)]]
    let others := [first, second, .select [column "a"], .select [column "c", .against .less (column "d") (.int 3)],
      .orderBy (column "a") .asc, .thenBy (column "b") .asc, .orderBy (column "c") .desc, .thenBy (column "d") .asc,
      .take 9, .take 5, .skip 2, .distinct, .groupBy [column "a"], .groupBy [column "b", column "c"]]
    ∃ statement, (Query.mk "t" ops).statement = .ok statement ∧ (Query.mk "t" others).statement = .ok statement ∧
      statement.orderBy = [⟨"c", .desc⟩, ⟨"d", .asc⟩] ∧ statement.limit = some "5" ∧
      statement.columns = [.ofName "c", .ofText "d < 3"] ∧
      statement.groupBy = [.ofName "a", .ofName "b", .ofName "c"] := by
  intro column first second ops others
  have same : Interleaved ops others := by
    intro kind
    cases kind <;> rfl
  obtain ⟨agree, facts⟩ := interleaved_queries_agree "t" ops others same
  rcases agree with ⟨statement, built, rebuilt⟩ | ⟨fault, _, failed, -⟩
  · obtain ⟨ordered, projected, limited, -, grouped⟩ := facts statement built
    have last : (ops.filterMap limit?).getLast? = some 5 := rfl
    rw [last] at limited
    exact ⟨statement, built, rebuilt, (Except.ok.inj ordered).symm, limited.trans (by decide +kernel),
      (Except.ok.inj projected).symm, (Except.ok.inj grouped).symm⟩
  · cases failed

end PipeSql

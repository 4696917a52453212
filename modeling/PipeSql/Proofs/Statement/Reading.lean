import Mathlib.Data.List.Forall2
import PipeSql.Statement

set_option autoImplicit false

namespace PipeSql.Clause

inductive Proposition where
  | leaf (condition : Condition Column)
  | group (alternatives : List (List Proposition))

namespace Proposition

mutual

def holds (valuation : Condition Column → Bool) : Proposition → Bool
  | .leaf condition => valuation condition
  | .group alternatives => anyHolds valuation alternatives

def anyHolds (valuation : Condition Column → Bool) : List (List Proposition) → Bool
  | [] => false
  | factors :: rest => allHold valuation factors || anyHolds valuation rest

def allHold (valuation : Condition Column → Bool) : List Proposition → Bool
  | [] => true
  | factor :: rest => factor.holds valuation && allHold valuation rest

end

variable (valuation : Condition Column → Bool)

theorem any_holds_append (left right : List (List Proposition)) :
    anyHolds valuation (left ++ right) = (anyHolds valuation left || anyHolds valuation right) := by
  induction left with
  | nil => rfl
  | cons factors rest ih => rw [List.cons_append, anyHolds, anyHolds, ih, Bool.or_assoc]

theorem all_hold_append (left right : List Proposition) :
    allHold valuation (left ++ right) = (allHold valuation left && allHold valuation right) := by
  induction left with
  | nil => rfl
  | cons factor rest ih => rw [List.cons_append, allHold, allHold, ih, Bool.and_assoc]

theorem all_hold_flatten (factors : List (List Proposition)) :
    allHold valuation factors.flatten = (factors.map (allHold valuation)).all id := by
  induction factors with
  | nil => rfl
  | cons first rest ih => rw [List.flatten_cons, all_hold_append, ih, List.map_cons, List.all_cons, id]

theorem any_holds_singleton (factors : List Proposition) :
    anyHolds valuation [factors] = allHold valuation factors := by
  rw [anyHolds, anyHolds, Bool.or_false]

theorem all_hold_singleton (factor : Proposition) : allHold valuation [factor] = factor.holds valuation := by
  rw [allHold, allHold, Bool.and_true]

end Proposition

-- A group that is being read: the alternatives before the last OR, and the factors behind it.
structure Frame where
  done : List (List Proposition)
  factors : List Proposition

namespace Frame

def alternatives (frame : Frame) : List (List Proposition) :=
  frame.done ++ [frame.factors]

-- The first alternative continues the factors read so far.
def push (frame : Frame) : List (List Proposition) → Frame
  | [] => frame
  | [factors] => ⟨frame.done, frame.factors ++ factors⟩
  | factors :: rest => push ⟨frame.done ++ [frame.factors ++ factors], []⟩ rest

end Frame

mutual

def operand (stack : List Frame) (frame : Frame) : List (Condition Column) → Option Proposition
  | .opening :: rest => operand (frame :: stack) ⟨[], []⟩ rest
  | .comparison left operator right :: rest =>
    connective stack (frame.push [[.leaf (.comparison left operator right)]]) rest
  | .expression text :: rest => connective stack (frame.push [[.leaf (.expression text)]]) rest
  | .closing :: _ | .connective _ :: _ | [] => none

def connective (stack : List Frame) (frame : Frame) : List (Condition Column) → Option Proposition
  | [] => if stack.isEmpty then some (.group frame.alternatives) else none
  | .connective .and :: rest => operand stack frame rest
  | .connective .or :: rest => operand stack ⟨frame.alternatives, []⟩ rest
  | .closing :: rest =>
    match stack with
    | [] => none
    | outer :: stack => connective stack (outer.push [[.group frame.alternatives]]) rest
  | .opening :: _ | .comparison .. :: _ | .expression _ :: _ => none

end

def formula? (conditions : List (Condition Column)) : Option Proposition :=
  if conditions.isEmpty then some (.group [[]]) else operand [] ⟨[], []⟩ conditions

-- The conditions are read as a list of alternatives wherever an operand may stand.
structure Reads (conditions : List (Condition Column)) (alternatives : List (List Proposition)) : Prop where
  nonempty : alternatives ≠ []
  read : ∀ (stack : List Frame) (frame : Frame) (rest : List (Condition Column)),
    operand stack frame (conditions ++ rest) = connective stack (frame.push alternatives) rest
  loose : ∀ (depth : Nat) (rest : List (Condition Column)), Condition.looseOrFrom depth (conditions ++ rest) =
    ((depth == 0 && decide (1 < alternatives.length)) || Condition.looseOrFrom depth rest)

theorem push_single (frame : Frame) (left right : List Proposition) :
    (frame.push [left]).push [right] = frame.push [left ++ right] := by
  simp [Frame.push]

theorem push_alternatives (frame : Frame) (first : List Proposition) (rest : List (List Proposition)) :
    (frame.push (first :: rest)).alternatives = frame.done ++ (frame.factors ++ first) :: rest := by
  induction rest generalizing frame first with
  | nil => rfl
  | cons second rest ih =>
    rw [Frame.push]
    · rw [ih]
      simp
    · simp

theorem push_empty (alternatives : List (List Proposition)) (nonempty : alternatives ≠ []) :
    (Frame.push ⟨[], []⟩ alternatives).alternatives = alternatives := by
  cases alternatives with
  | nil => exact absurd rfl nonempty
  | cons first rest => rw [push_alternatives, List.nil_append, List.nil_append]

theorem push_append (frame : Frame) (left right : List (List Proposition)) (leftSome : left ≠ [])
    (rightSome : right ≠ []) :
    Frame.push ⟨(frame.push left).alternatives, []⟩ right = frame.push (left ++ right) := by
  induction left generalizing frame with
  | nil => exact absurd rfl leftSome
  | cons first rest ih =>
    cases rest with
    | nil =>
      cases right with
      | nil => exact absurd rfl rightSome
      | cons next others => rfl
    | cons second rest => exact ih _ (by simp)

theorem reads_comparison (left : Column) (operator : Comparison) (right : String) :
    Reads [.comparison left operator right] [[.leaf (.comparison left operator right)]] where
  nonempty := by simp
  read _ _ _ := rfl
  loose _ _ := by simp [Condition.looseOrFrom]

theorem reads_expression (text : String) : Reads [.expression text] [[.leaf (.expression text)]] where
  nonempty := by simp
  read _ _ _ := rfl
  loose _ _ := by simp [Condition.looseOrFrom]

theorem reads_and {left right : List (Condition Column)} {before after : List Proposition}
    (leftReads : Reads left [before]) (rightReads : Reads right [after]) :
    Reads (left ++ .and :: right) [before ++ after] where
  nonempty := by simp
  read stack frame rest := by
    rw [List.append_assoc, leftReads.read, List.cons_append]
    change operand stack (frame.push [before]) (right ++ rest) = _
    rw [rightReads.read, push_single]
  loose depth rest := by
    rw [List.append_assoc, leftReads.loose]
    change (_ || Condition.looseOrFrom depth (right ++ rest)) = _
    rw [rightReads.loose]
    simp

theorem reads_or {left right : List (Condition Column)} {before after : List (List Proposition)}
    (leftReads : Reads left before) (rightReads : Reads right after) :
    Reads (left ++ .or :: right) (before ++ after) where
  nonempty := by simp [leftReads.nonempty]
  read stack frame rest := by
    rw [List.append_assoc, leftReads.read, List.cons_append]
    change operand stack ⟨(frame.push before).alternatives, []⟩ (right ++ rest) = _
    rw [rightReads.read, push_append frame before after leftReads.nonempty rightReads.nonempty]
  loose depth rest := by
    have leftSome := List.length_pos_iff.2 leftReads.nonempty
    have rightSome := List.length_pos_iff.2 rightReads.nonempty
    rw [List.append_assoc, leftReads.loose, List.length_append]
    cases depth with
    | zero =>
      have several : 1 < before.length + after.length := by omega
      simp [Condition.looseOrFrom, Condition.or, several]
    | succ depth =>
      change (_ || Condition.looseOrFrom (depth + 1) (right ++ rest)) = _
      rw [rightReads.loose]
      simp

theorem reads_paren {conditions : List (Condition Column)} {alternatives : List (List Proposition)}
    (reads : Reads conditions alternatives) :
    Reads (.opening :: conditions ++ [.closing]) [[.group alternatives]] where
  nonempty := by simp
  read stack frame rest := by
    rw [List.append_assoc, List.cons_append, List.singleton_append]
    change operand (frame :: stack) ⟨[], []⟩ (conditions ++ .closing :: rest) = _
    rw [reads.read]
    change connective stack (frame.push [[.group (Frame.push ⟨[], []⟩ alternatives).alternatives]]) rest = _
    rw [push_empty alternatives reads.nonempty]
  loose depth rest := by
    rw [List.append_assoc, List.cons_append, List.singleton_append]
    change Condition.looseOrFrom (depth + 1) (conditions ++ .closing :: rest) = _
    rw [reads.loose]
    simp [Condition.looseOrFrom]

theorem reads_some {conditions : List (Condition Column)} {alternatives : List (List Proposition)}
    (reads : Reads conditions alternatives) : conditions.isEmpty = false := by
  cases conditions with
  | nil =>
    have nothing := reads.read [] ⟨[], []⟩ []
    cases nothing
  | cons first rest => rfl

theorem reads_formula {conditions : List (Condition Column)} {alternatives : List (List Proposition)}
    (reads : Reads conditions alternatives) : formula? conditions = some (.group alternatives) := by
  have read := reads.read [] ⟨[], []⟩ []
  rw [List.append_nil] at read
  rw [formula?, reads_some reads, if_neg (by simp), read]
  change some (Proposition.group (Frame.push ⟨[], []⟩ alternatives).alternatives) = _
  rw [push_empty alternatives reads.nonempty]

def conjoin (before after : List (Condition Column)) : List (Condition Column) :=
  before ++ if before.isEmpty then after else .and :: after

theorem reads_conjoined (before : List (Condition Column)) (known : List Proposition) (reads : Reads before [known])
    {steps : List (List (Condition Column))} {factors : List (List Proposition)}
    (each : List.Forall₂ (fun conditions factor => Reads conditions [factor]) steps factors) :
    Reads (steps.foldl conjoin before) [known ++ factors.flatten] := by
  induction each generalizing before known with
  | nil => simpa using reads
  | @cons conditions factor steps factors first rest ih =>
    have joined : Reads (conjoin before conditions) [known ++ factor] := by
      rw [conjoin, reads_some reads, if_neg (by simp)]
      exact reads_and reads first
    have continued := ih (conjoin before conditions) (known ++ factor) joined
    simpa using continued

theorem formula_conjoined {steps : List (List (Condition Column))} {factors : List (List Proposition)}
    (each : List.Forall₂ (fun conditions factor => Reads conditions [factor]) steps factors) :
    formula? (steps.foldl conjoin []) = some (.group [factors.flatten]) := by
  cases each with
  | nil => rfl
  | @cons conditions factor steps factors first rest =>
    have continued := reads_conjoined conditions factor first rest
    exact reads_formula continued

end PipeSql.Clause

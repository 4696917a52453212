import Mathlib.Data.List.Basic
import PipeSql.Statement.Sql

set_option autoImplicit false

namespace PipeSql

theorem Condition.sqls_append (dialect : Dialect) (left right : List (Condition Column)) :
    sqls dialect (left ++ right) = sqls dialect left ++ sqls dialect right := by
  induction left with
  | nil => rfl
  | cons first rest ih => cases first <;> simp only [List.cons_append, sqls, ih]

namespace Clause

-- The tokens are joined to the text, and a space can stand on both sides of them.
structure Joins (tokens : List String) (text : String) : Prop where
  filled : tokens ≠ []
  starts : tokens.head? ≠ some ")"
  ends : tokens.getLast? ≠ some "("
  joined : joinTokens tokens = text

theorem joins_single {token : String} (starts : token ≠ ")") (ends : token ≠ "(") : Joins [token] token :=
  ⟨List.cons_ne_nil _ _, by simpa using starts, by simpa using ends, rfl⟩

theorem join_tokens_spaced {left right : List String} (leftFilled : left ≠ []) (rightFilled : right ≠ [])
    (ends : left.getLast? ≠ some "(") (starts : right.head? ≠ some ")") :
    joinTokens (left ++ right) = joinTokens left ++ " " ++ joinTokens right := by
  induction left with
  | nil => exact absurd rfl leftFilled
  | cons first rest ih =>
    cases rest with
    | nil =>
      cases right with
      | nil => exact absurd rfl rightFilled
      | cons second others =>
        have opening : first ≠ "(" := by simpa using ends
        have closing : second ≠ ")" := by simpa using starts
        simp [joinTokens, opening, closing]
    | cons second others =>
      have shorter := ih (List.cons_ne_nil _ _) (by simpa using ends)
      simp only [List.cons_append, joinTokens] at shorter ⊢
      rw [shorter]
      simp only [String.append_assoc]

theorem join_tokens_closed {tokens : List String} (filled : tokens ≠ []) :
    joinTokens (tokens ++ [")"]) = joinTokens tokens ++ ")" := by
  induction tokens with
  | nil => exact absurd rfl filled
  | cons first rest ih =>
    cases rest with
    | nil => simp [joinTokens]
    | cons second others =>
      have shorter := ih (List.cons_ne_nil _ _)
      simp only [List.cons_append, joinTokens] at shorter ⊢
      rw [shorter]
      simp only [String.append_assoc]

theorem joins_spaced {left right : List String} {leftText rightText : String} (first : Joins left leftText)
    (second : Joins right rightText) : Joins (left ++ right) (leftText ++ " " ++ rightText) where
  filled empty := first.filled (List.append_eq_nil_iff.1 empty).1
  starts := by
    rw [List.head?_append_of_ne_nil _ first.filled]
    exact first.starts
  ends := by
    rw [List.getLast?_append_of_ne_nil _ second.filled]
    exact second.ends
  joined := by
    rw [join_tokens_spaced first.filled second.filled first.ends second.starts, first.joined, second.joined]

theorem joins_parenthesized {tokens : List String} {text : String} (inside : Joins tokens text) :
    Joins ("(" :: tokens ++ [")"]) ("(" ++ text ++ ")") where
  filled := List.cons_ne_nil _ _
  starts := by simp
  ends := by simp [List.getLast?_cons, List.getLast?_append]
  joined := by
    rw [List.cons_append]
    cases tokens with
    | nil => exact absurd rfl inside.filled
    | cons first rest =>
      have closed := join_tokens_closed inside.filled
      rw [List.cons_append] at closed ⊢
      rw [joinTokens, closed, inside.joined]
      simp [String.append_assoc]

end Clause

end PipeSql

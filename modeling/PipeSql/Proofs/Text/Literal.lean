import PipeSql.Text

set_option autoImplicit false

namespace PipeSql.Text

-- Drops what stands between the quotes of string literals, where a doubled quote stands for one.
def hollow : Bool → List Char → List Char
  | _, [] => []
  | true, '\'' :: '\'' :: rest => hollow true rest
  | inside, c :: rest =>
    if c = '\'' then '\'' :: hollow (!inside) rest
    else if inside then hollow inside rest
    else c :: hollow inside rest

def eraseLiterals (text : String) : String :=
  String.ofList (hollow false text.toList)

example : eraseLiterals "a = 'it''s' OR b = '--' " = "a = '' OR b = '' " := by decide

inductive Alike : List Char → List Char → Prop where
  | nil : Alike [] []
  | other (c : Char) (a b : List Char) (outside : c ≠ '\'') (rest : Alike a b) : Alike (c :: a) (c :: b)
  | literal (x y a b : List Char) (rest : Alike a b) :
      Alike ('\'' :: (doubleQuotes x ++ '\'' :: a)) ('\'' :: (doubleQuotes y ++ '\'' :: b))

theorem alike_append {a b c d : List Char} (left : Alike a b) (right : Alike c d) :
    Alike (a ++ c) (b ++ d) := by
  induction left with
  | nil => exact right
  | other e a b outside rest ih => exact .other e _ _ outside ih
  | literal x y a b rest ih =>
    have joined := Alike.literal x y _ _ ih
    simpa using joined

theorem alike_of_no_quote {chars : List Char} (free : '\'' ∉ chars) : Alike chars chars := by
  induction chars with
  | nil => exact .nil
  | cons c rest ih =>
    simp only [List.mem_cons, not_or] at free
    exact .other c _ _ (Ne.symm free.1) (ih free.2)

theorem alike_literal (x y : List Char) :
    Alike ('\'' :: (doubleQuotes x ++ ['\''])) ('\'' :: (doubleQuotes y ++ ['\''])) :=
  .literal x y [] [] .nil

theorem hollow_double_quotes (value rest : List Char) :
    hollow true (doubleQuotes value ++ rest) = hollow true rest := by
  induction value with
  | nil => rfl
  | cons c value ih =>
    by_cases quote : c = '\''
    · subst quote
      simpa [doubleQuotes, hollow] using ih
    · simpa [doubleQuotes, hollow, quote] using ih

-- A literal that follows another one at once continues it, so the second part carries what
-- happens behind a closing quote.
theorem alike_hollow {a b : List Char} (alike : Alike a b) :
    hollow false a = hollow false b ∧ hollow true ('\'' :: a) = hollow true ('\'' :: b) := by
  induction alike with
  | nil => exact ⟨rfl, rfl⟩
  | other c a b outside rest ih =>
    have opened : ∀ chars, hollow true ('\'' :: c :: chars) = '\'' :: hollow false (c :: chars) := by
      intro chars
      simp [hollow, outside]
    have same : hollow false (c :: a) = hollow false (c :: b) := by
      simp [hollow, outside, ih.1]
    exact ⟨same, by rw [opened a, opened b, same]⟩
  | literal x y a b rest ih =>
    constructor
    · simp only [hollow, if_true, Bool.not_false]
      rw [hollow_double_quotes, hollow_double_quotes, ih.2]
    · simp only [hollow]
      rw [hollow_double_quotes, hollow_double_quotes, ih.2]

-- Nothing can differ where there is no literal.
theorem alike_rigid {a b : List Char} (alike : Alike a b) (free : '\'' ∉ a ∨ '\'' ∉ b) : a = b := by
  induction alike with
  | nil => rfl
  | other c a b outside rest ih =>
    simp only [List.mem_cons, not_or] at free
    rw [ih (free.imp And.right And.right)]
  | literal x y a b rest ih => simp at free

theorem alike_head {a b : List Char} (c : Char) (alike : Alike a b) :
    a.head? = some c ↔ b.head? = some c := by
  cases alike with
  | nil => simp
  | other => simp
  | literal => simp

theorem alike_tail {a b : List Char} {c : Char} (alike : Alike a b) (outside : c ≠ '\'')
    (head : a.head? = some c) : Alike a.tail b.tail := by
  cases alike with
  | nil => cases head
  | other c a b outside rest => exact rest
  | literal x y a b rest =>
    have impossible : '\'' = c := by simpa using head
    exact absurd impossible.symm outside

theorem alike_take_while {a b : List Char} {accepted : Char → Bool} (alike : Alike a b)
    (outside : accepted '\'' = false) : a.takeWhile accepted = b.takeWhile accepted := by
  induction alike with
  | nil => rfl
  | other c a b _ rest ih => simp only [List.takeWhile_cons, ih]
  | literal x y a b rest ih => simp [outside]

theorem alike_drop_while {a b : List Char} {accepted : Char → Bool} (alike : Alike a b)
    (outside : accepted '\'' = false) : Alike (a.dropWhile accepted) (b.dropWhile accepted) := by
  induction alike with
  | nil => exact .nil
  | other c a b different rest ih =>
    rw [List.dropWhile_cons, List.dropWhile_cons]
    by_cases taken : accepted c = true
    · rw [if_pos taken, if_pos taken]
      exact ih
    · rw [if_neg taken, if_neg taken]
      exact .other c a b different rest
  | literal x y a b rest ih =>
    rw [List.dropWhile_cons, List.dropWhile_cons, outside]
    exact .literal x y a b rest

end PipeSql.Text

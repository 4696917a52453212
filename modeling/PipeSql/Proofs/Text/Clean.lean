import PipeSql.Proofs.Text.Literal
import PipeSql.Proofs.Token.Sound

set_option autoImplicit false

namespace PipeSql.Text

-- The names behind the marks in the characters, each up to the first character that no name has.
def marked : List Char → List String
  | [] => []
  | c :: rest =>
    if c = '@' then String.ofList (rest.takeWhile isNamePart) :: marked rest else marked rest

-- The parameters that a text mentions outside of string literals.
def mentioned (text : String) : List String :=
  marked (eraseLiterals text).toList

example : mentioned "a = @first AND b = '@second' OR c IN (@third, @_4)" = ["first", "third", "_4"] := by decide

-- Outside of its string literals the text has no line comment.
def NoComment (text : String) : Prop :=
  ¬ ['-', '-'] <:+: (eraseLiterals text).toList

structure Allowance where
  parameter : String → Prop
  comment : Prop

-- Nothing follows, or something that ends a name and is no dash.
def Halts (rest : List Char) : Prop :=
  ∀ c, rest.head? = some c → c = ' ' ∨ c = ')' ∨ c = ','

theorem halts_nil : Halts [] := fun _ empty => by cases empty

theorem halts_cons {c : Char} (rest : List Char) (stop : c = ' ' ∨ c = ')' ∨ c = ',') : Halts (c :: rest) := by
  intro d head
  cases head
  exact stop

theorem halts_append {first second : List Char} (left : Halts first) (right : Halts second) : Halts (first ++ second) := by
  cases first with
  | nil => exact right
  | cons c rest => exact halts_cons _ (left c rfl)

theorem halts_head {rest : List Char} (halts : Halts rest) {c : Char} (other : c ≠ ' ' ∧ c ≠ ')' ∧ c ≠ ',') :
    rest.head? ≠ some c := by
  intro head
  rcases halts c head with rfl | rfl | rfl
  · exact other.1 rfl
  · exact other.2.1 rfl
  · exact other.2.2 rfl

inductive Clean (allowed : Allowance) : List Char → Prop where
  | nil : Clean allowed []
  | other (c : Char) (rest : List Char) (quote : c ≠ '\'') (mark : c ≠ '@')
      (dashes : c = '-' → rest.head? = some '-' → allowed.comment) (clean : Clean allowed rest) : Clean allowed (c :: rest)
  | parameter (name rest : List Char) (word : isWord name = true) (known : allowed.parameter (String.ofList name))
      (halts : Halts rest) (clean : Clean allowed rest) : Clean allowed ('@' :: (name ++ rest))
  | literal (value rest : List Char) (closed : rest.head? ≠ some '\'') (clean : Clean allowed rest) :
      Clean allowed ('\'' :: (doubleQuotes value ++ '\'' :: rest))

variable {allowed : Allowance}

theorem clean_append {first second : List Char} (left : Clean allowed first) (halts : Halts second)
    (right : Clean allowed second) : Clean allowed (first ++ second) := by
  have head : ∀ {c : Char} (rest : List Char), c ≠ ' ' ∧ c ≠ ')' ∧ c ≠ ',' → (rest ++ second).head? = some c →
      rest.head? = some c := by
    intro c rest other found
    cases rest with
    | nil => exact absurd found (halts_head halts other)
    | cons d rest => exact found
  induction left with
  | nil => exact right
  | other c rest quote mark dashes clean ih =>
    exact .other c _ quote mark (fun dash next => dashes dash (head rest (by decide) next)) ih
  | parameter name rest word known ends clean ih =>
    rw [List.cons_append, List.append_assoc]
    exact .parameter name _ word known (halts_append ends halts) ih
  | literal value rest closed clean ih =>
    rw [List.cons_append, List.append_assoc, List.cons_append]
    exact .literal value _ (fun quote => closed (head rest (by decide) quote)) ih

-- Characters that may stand in front of any clean text: no literals, no marks, and every dash is followed.
def leads : List Char → Bool
  | [] => true
  | c :: rest => c != '\'' && c != '@' && (c != '-' || rest.head?.any (· != '-')) && leads rest

theorem leads_clean {first second : List Char} (left : leads first = true) (right : Clean allowed second) :
    Clean allowed (first ++ second) := by
  induction first with
  | nil => exact right
  | cons c rest ih =>
    simp only [leads, Bool.and_eq_true, Bool.or_eq_true, bne_iff_ne] at left
    obtain ⟨⟨⟨quote, mark⟩, dash⟩, others⟩ := left
    refine .other c _ quote mark (fun here next => ?_) (ih others)
    rcases dash with dash | dash
    · exact absurd here dash
    · cases rest with
      | nil => simp at dash
      | cons d rest => simp_all

theorem leads_self {chars : List Char} (left : leads chars = true) : Clean allowed chars := by
  simpa using leads_clean left (@Clean.nil allowed)

theorem leads_append {first second : List Char} (left : leads first = true) (right : leads second = true) :
    leads (first ++ second) = true := by
  induction first with
  | nil => exact right
  | cons c rest ih =>
    simp only [leads, Bool.and_eq_true] at left
    simp only [List.cons_append, leads, left.1.1, ih left.2, Bool.true_and, Bool.and_true]
    cases rest with
    | nil =>
      have dash := left.1.2
      simp at dash
      simp [dash]
    | cons d rest => exact left.1.2

theorem leads_parts {chars : List Char} (parts : ∀ c ∈ chars, isNamePart c = true ∨ c = '.') : leads chars = true := by
  induction chars with
  | nil => rfl
  | cons c rest ih =>
    have others := ih fun d member => parts d (.tail _ member)
    have plain : c ≠ '\'' ∧ c ≠ '@' ∧ c ≠ '-' := by
      refine ⟨?_, ?_, ?_⟩
      all_goals
        rintro rfl
        exact absurd (parts _ (.head _)) (by decide)
    simp [leads, plain, others]

theorem leads_word {chars : List Char} (word : isWord chars = true) : leads chars = true :=
  leads_parts fun c member => .inl (Token.word_parts chars word c member)

theorem halts_breaks {rest : List Char} (halts : Halts rest) : Breaks rest := by
  intro c head
  rcases halts c head with rfl | rfl | rfl <;> decide

theorem marked_plain {first : List Char} (plain : '@' ∉ first) (second : List Char) :
    marked (first ++ second) = marked second := by
  induction first with
  | nil => rfl
  | cons c rest ih =>
    simp only [List.mem_cons, not_or] at plain
    rw [List.cons_append, marked, if_neg (Ne.symm plain.1), ih plain.2]

theorem hollow_other {c : Char} (other : c ≠ '\'') (rest : List Char) :
    hollow false (c :: rest) = c :: hollow false rest := by
  simp [hollow, other]

theorem hollow_plain {first : List Char} (plain : '\'' ∉ first) (second : List Char) :
    hollow false (first ++ second) = first ++ hollow false second := by
  induction first with
  | nil => rfl
  | cons c rest ih =>
    simp only [List.mem_cons, not_or] at plain
    rw [List.cons_append, hollow_other (Ne.symm plain.1), ih plain.2, List.cons_append]

theorem hollow_literal (value : List Char) {rest : List Char} (closed : rest.head? ≠ some '\'') :
    hollow false ('\'' :: (doubleQuotes value ++ '\'' :: rest)) = '\'' :: '\'' :: hollow false rest := by
  have ended : hollow true ('\'' :: rest) = '\'' :: hollow false rest := by
    cases rest with
    | nil => rfl
    | cons c rest =>
      have other : c ≠ '\'' := fun same => closed (by rw [same]; rfl)
      simp [hollow, other]
  simp only [hollow, if_true, Bool.not_false]
  rw [hollow_double_quotes, ended]

theorem halts_hollow {rest : List Char} (halts : Halts rest) : Halts (hollow false rest) := by
  cases rest with
  | nil => exact halts_nil
  | cons c rest =>
    have stop := halts c rfl
    have other : c ≠ '\'' := by
      rintro rfl
      exact absurd stop (by decide)
    rw [hollow_other other]
    exact halts_cons _ stop

theorem word_mark {name : List Char} (word : isWord name = true) : '@' ∉ name := fun mark =>
  absurd (Token.word_parts name word '@' mark) (by decide)

theorem clean_marked {chars : List Char} (clean : Clean allowed chars) :
    ∀ name ∈ marked (hollow false chars), allowed.parameter name := by
  induction clean with
  | nil => simp [hollow, marked]
  | other c rest quote mark dashes clean ih =>
    rw [hollow_other quote, marked, if_neg mark]
    exact ih
  | parameter name rest word known halts clean ih =>
    rw [hollow_other (by decide), hollow_plain (Token.word_quiet name word), marked, if_pos rfl,
      List.takeWhile_append_of_pos (Token.word_parts name word), breaks_take (halts_breaks (halts_hollow halts)), List.append_nil,
      marked_plain (word_mark word)]
    intro other member
    rcases List.mem_cons.1 member with rfl | member
    · exact known
    · exact ih other member
  | literal value rest closed clean ih =>
    rw [hollow_literal value closed]
    simpa [marked] using ih

theorem dashes_cons {c : Char} {rest : List Char} (pair : ['-', '-'] <:+: c :: rest) :
    (c = '-' ∧ rest.head? = some '-') ∨ ['-', '-'] <:+: rest := by
  rcases List.infix_cons_iff.1 pair with ⟨others, here⟩ | later
  · cases here
    exact .inl ⟨rfl, rfl⟩
  · exact .inr later

theorem dashes_plain {first second : List Char} (plain : '-' ∉ first) (pair : ['-', '-'] <:+: first ++ second) :
    ['-', '-'] <:+: second := by
  induction first with
  | nil => exact pair
  | cons c rest ih =>
    simp only [List.mem_cons, not_or] at plain
    rcases dashes_cons pair with here | later
    · exact absurd here.1.symm plain.1
    · exact ih plain.2 later

theorem hollow_dash {rest : List Char} (head : (hollow false rest).head? = some '-') : rest.head? = some '-' := by
  cases rest with
  | nil => cases head
  | cons c rest =>
    by_cases quote : c = '\''
    · subst quote
      simp [hollow] at head
    · rw [hollow_other quote] at head
      exact head

theorem clean_dashes {chars : List Char} (clean : Clean allowed chars) (pair : ['-', '-'] <:+: hollow false chars) :
    allowed.comment := by
  induction clean with
  | nil =>
    have short := pair.length_le
    simp [hollow] at short
  | other c rest quote mark dashes clean ih =>
    rw [hollow_other quote] at pair
    rcases dashes_cons pair with ⟨dash, next⟩ | later
    · exact dashes dash (hollow_dash next)
    · exact ih later
  | parameter name rest word known halts clean ih =>
    have plain : '-' ∉ name := fun member => absurd (Token.word_parts name word '-' member) (by decide)
    rw [hollow_other (by decide), hollow_plain (Token.word_quiet name word)] at pair
    rcases dashes_cons pair with here | later
    · exact absurd here.1 (by decide)
    · exact ih (dashes_plain plain later)
  | literal value rest closed clean ih =>
    rw [hollow_literal value closed] at pair
    exact ih (@dashes_plain ['\'', '\''] _ (by decide) pair)

end PipeSql.Text

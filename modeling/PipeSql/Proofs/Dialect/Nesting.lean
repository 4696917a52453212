import PipeSql.Proofs.Dialect.Respell
import PipeSql.Proofs.Token.Sound

set_option autoImplicit false

namespace PipeSql

namespace Text

-- Whether the parentheses match when some are open already.
def parensFrom : Nat → List Char → Bool
  | depth, [] => depth == 0
  | depth, c :: rest =>
    if c = '(' then parensFrom (depth + 1) rest
    else if c = ')' then depth != 0 && parensFrom (depth - 1) rest
    else parensFrom depth rest

def parensMatch (text : String) : Bool :=
  parensFrom 0 (eraseLiterals text).toList

example : parensMatch "f(a, '(' || b) = ')'" = true := by decide

-- Respelling keeps this: it copies literals, and where it drops parentheses it drops a pair.
structure Balanced (text : String) : Prop where
  closed : Closed text
  matched : parensMatch text = true

structure Nesting where
  quoted : Bool
  depth : Nat
deriving DecidableEq, Repr

namespace Nesting

-- A doubled quote inside of a literal ends it and begins it again.
def next (c : Char) : Nesting → Option Nesting
  | ⟨quoted, depth⟩ =>
    if c = '\'' then some ⟨!quoted, depth⟩
    else if quoted then some ⟨quoted, depth⟩
    else if c = '(' then some ⟨quoted, depth + 1⟩
    else if c = ')' then if depth = 0 then none else some ⟨quoted, depth - 1⟩
    else some ⟨quoted, depth⟩

def along : List Char → Nesting → Option Nesting
  | [], place => some place
  | c :: rest, place => (place.next c).bind (along rest)

theorem along_append (left right : List Char) (place : Nesting) :
    along (left ++ right) place = (along left place).bind (along right) := by
  induction left generalizing place with
  | nil => rfl
  | cons c rest ih =>
    rw [List.cons_append, along, along]
    cases place.next c with
    | none => rfl
    | some between => exact ih between

theorem along_past {left : List Char} {place behind : Nesting} (passed : along left place = some behind)
    (right : List Char) : along (left ++ right) place = along right behind := by
  rw [along_append, passed, Option.bind_some]

-- Characters that leave every place as it is.
def Plain (chars : List Char) : Prop :=
  '\'' ∉ chars ∧ '(' ∉ chars ∧ ')' ∉ chars

instance (chars : List Char) : Decidable (Plain chars) :=
  inferInstanceAs (Decidable (_ ∧ _ ∧ _))

theorem along_plain {chars : List Char} (plain : Plain chars) (place : Nesting) : along chars place = some place := by
  induction chars with
  | nil => rfl
  | cons c rest ih =>
    simp only [Plain, List.mem_cons, not_or] at plain
    obtain ⟨⟨quote, noQuote⟩, ⟨opening, noOpening⟩, ⟨closing, noClosing⟩⟩ := plain
    rw [along, next, if_neg (Ne.symm quote), if_neg (Ne.symm opening), if_neg (Ne.symm closing), ite_self]
    exact ih ⟨noQuote, noOpening, noClosing⟩

theorem along_quoted {c : Char} (inside : c ≠ '\'') (rest : List Char) (depth : Nat) :
    along (c :: rest) ⟨true, depth⟩ = along rest ⟨true, depth⟩ := by
  rw [along, next, if_neg inside, if_pos rfl]
  rfl

theorem along_quote (rest : List Char) (quoted : Bool) (depth : Nat) :
    along ('\'' :: rest) ⟨quoted, depth⟩ = along rest ⟨!quoted, depth⟩ :=
  rfl

theorem next_outside {c : Char} (outside : c ≠ '\'') (depth : Nat) :
    next c ⟨false, depth⟩ = none ∨ ∃ inner, next c ⟨false, depth⟩ = some ⟨false, inner⟩ := by
  rw [next, if_neg outside, if_neg (by decide)]
  split
  · exact .inr ⟨_, rfl⟩
  · split
    · split
      · exact .inl rfl
      · exact .inr ⟨_, rfl⟩
    · exact .inr ⟨_, rfl⟩

-- The end of a literal that does not end is the end of the text.
theorem along_literal (rest : List Char) (depth : Nat) :
    along (Piece.literalEnd rest).1 ⟨true, depth⟩ = some ⟨false, depth⟩ ∨ (Piece.literalEnd rest).2 = [] := by
  induction rest using Piece.literalEnd.induct with
  | case1 => exact .inr rfl
  | case2 rest ih => exact ih
  | case3 rest _ =>
    rw [Piece.literalEnd, if_pos rfl]
    · exact .inl rfl
    · assumption
  | case4 c rest _ inside ih =>
    rw [Piece.literalEnd, if_neg inside]
    · dsimp only
      rw [along_quoted inside]
      exact ih
    · assumption

-- Pieces behind which the text goes on outside of literals.
inductive Tame : List Piece → Prop where
  | nil : Tame []
  | literal {chars : List Char} {rest : List Piece}
      (ends : (∀ depth, along chars ⟨false, depth⟩ = some ⟨false, depth⟩) ∨ rest = []) (tame : Tame rest) :
      Tame (.literal chars :: rest)
  | bars {rest : List Piece} (tame : Tame rest) : Tame (.bars :: rest)
  | word {chars : List Char} {rest : List Piece} (plain : Plain chars) (tame : Tame rest) :
      Tame (.word chars :: rest)
  | other {c : Char} {rest : List Piece} (outside : c ≠ '\'') (tame : Tame rest) : Tame (.other c :: rest)

theorem name_plain {chars : List Char} (parts : ∀ c ∈ chars, isNamePart c = true) : Plain chars := by
  refine ⟨?_, ?_, ?_⟩
  all_goals
    intro member
    cases parts _ member

theorem split_tame (chars : List Char) : Tame (Piece.split chars) := by
  induction chars using Piece.split.induct with
  | case1 =>
    rw [Piece.split]
    exact .nil
  | case2 rest ih =>
    rw [Piece.split_literal]
    refine .literal ?_ ih
    by_cases ended : (Piece.literalEnd rest).2 = []
    · rw [ended, Piece.split]
      exact .inr rfl
    · exact .inl fun depth => (along_literal rest depth).resolve_right ended
  | case3 c rest outside bars ih =>
    rw [Piece.split, if_neg outside, if_pos bars]
    exact .bars ih
  | case4 c rest outside noBars start ih =>
    rw [Piece.split, if_neg outside, if_neg noBars, if_pos start]
    refine .word (name_plain fun d member => ?_) ih
    rcases List.mem_cons.1 member with rfl | member
    · exact name_start_part start
    · exact List.mem_takeWhile_imp member
  | case5 c rest outside noBars noStart ih =>
    rw [Piece.split, if_neg outside, if_neg noBars, if_neg noStart]
    exact .other outside ih

end Nesting

end Text

namespace Dialect

open Text Nesting

theorem rename_plain {dialect : Dialect} {function name : String} (renamed : dialect.rename? function = some name) :
    Plain name.toList := by
  unfold rename? at renamed
  split at renamed
  all_goals cases renamed
  all_goals decide

theorem concat_plain (dialect : Dialect) : Plain dialect.spelling.concat.toList := by
  cases dialect <;> decide

-- Where an empty argument list is dropped, a pair of parentheses is.
theorem along_write (dialect : Dialect) (qualified : Bool) {pieces : List Piece} (tame : Tame pieces) (depth : Nat) :
    along (dialect.spelling.write qualified pieces) ⟨false, depth⟩ =
      along (pieces.flatMap Piece.chars) ⟨false, depth⟩ := by
  induction qualified, pieces using Spelling.write.induct dialect.spelling generalizing depth with
  | case1 => rfl
  | case2 qualified chars rest ih =>
    rcases tame with _ | ⟨ends, tame⟩
    rw [Spelling.write, List.flatMap_cons, Piece.chars]
    rcases ends with ends | rfl
    · rw [along_past (ends depth), along_past (ends depth), ih tame]
    · rfl
  | case3 qualified rest ih =>
    rcases tame with _ | _ | tame
    have bars : along Piece.bars.chars ⟨false, depth⟩ = some ⟨false, depth⟩ := along_plain (by decide) _
    rw [Spelling.write, List.flatMap_cons, along_past (along_plain dialect.concat_plain _), along_past bars, ih tame]
  | case4 qualified c rest ih =>
    rcases tame with _ | _ | _ | _ | ⟨outside, tame⟩
    rw [Spelling.write, List.flatMap_cons, Piece.chars, List.singleton_append, along, along]
    rcases next_outside outside depth with closed | ⟨inner, stepped⟩
    · rw [closed]
      rfl
    · rw [stepped, Option.bind_some, Option.bind_some, ih tame]
  | case5 qualified chars rest kept ih =>
    rcases tame with _ | _ | _ | ⟨plain, tame⟩
    rw [Spelling.write_kept _ qualified kept, List.flatMap_cons, Piece.chars, along_past (along_plain plain _),
      along_past (along_plain plain _), ih tame]
  | case6 qualified chars name rest renamed ih =>
    obtain ⟨-, function, found⟩ := Spelling.renamed_call _ renamed
    rcases tame with _ | _ | _ | ⟨plain, _ | _ | _ | _ | ⟨-, _ | _ | _ | _ | ⟨-, tame⟩⟩⟩
    have arguments : along (if Spelling.isBare name then [] else ['(', ')']) ⟨false, depth⟩ = some ⟨false, depth⟩ := by
      split
      · rfl
      · rfl
    have pair : along ['(', ')'] ⟨false, depth⟩ = some ⟨false, depth⟩ := rfl
    have called : (Piece.word chars :: .other '(' :: .other ')' :: rest).flatMap Piece.chars =
        chars ++ (['(', ')'] ++ rest.flatMap Piece.chars) := rfl
    rw [Spelling.write_emptied _ qualified renamed, called, List.append_assoc, along_past (along_plain plain _),
      along_past (along_plain (rename_plain found) _), along_past arguments, along_past pair, ih tame]
  | case7 qualified chars name rest filled renamed ih =>
    obtain ⟨-, function, found⟩ := Spelling.renamed_call _ renamed
    rcases tame with _ | _ | _ | ⟨plain, tame⟩
    rw [Spelling.write_renamed _ qualified filled renamed, List.flatMap_cons, Piece.chars,
      along_past (along_plain plain _), along_past (along_plain (rename_plain found) _), ih tame]

theorem along_respell (dialect : Dialect) (text : String) (depth : Nat) :
    along (dialect.respell text).toList ⟨false, depth⟩ = along text.toList ⟨false, depth⟩ := by
  rw [respell_chars, along_write dialect false (split_tame _), Piece.split_chars]

end Dialect

namespace Text

open Nesting

theorem next_deeper {c : Char} {quoted inside : Bool} {depth deep : Nat} (more : Nat)
    (stepped : next c ⟨quoted, depth⟩ = some ⟨inside, deep⟩) :
    next c ⟨quoted, depth + more⟩ = some ⟨inside, deep + more⟩ := by
  by_cases quote : c = '\''
  · rw [next, if_pos quote] at stepped ⊢
    cases stepped
    rfl
  · rw [next, if_neg quote] at stepped ⊢
    by_cases within : quoted = true
    · rw [if_pos within] at stepped ⊢
      cases stepped
      rfl
    · rw [if_neg within] at stepped ⊢
      by_cases opening : c = '('
      · rw [if_pos opening] at stepped ⊢
        cases stepped
        rw [Nat.add_right_comm]
      · rw [if_neg opening] at stepped ⊢
        by_cases closing : c = ')'
        · rw [if_pos closing] at stepped ⊢
          by_cases empty : depth = 0
          · rw [if_pos empty] at stepped
            cases stepped
          · rw [if_neg empty] at stepped
            cases stepped
            rw [if_neg (by omega), Nat.sub_add_comm (Nat.pos_of_ne_zero empty)]
        · rw [if_neg closing] at stepped ⊢
          cases stepped
          rfl

-- Inside of more parentheses a text goes the same way.
theorem along_deeper {chars : List Char} {quoted : Bool} {depth : Nat} {place : Nesting} (more : Nat)
    (passed : along chars ⟨quoted, depth⟩ = some place) :
    along chars ⟨quoted, depth + more⟩ = some ⟨place.quoted, place.depth + more⟩ := by
  induction chars generalizing quoted depth with
  | nil =>
    cases passed
    rfl
  | cons c rest ih =>
    rw [along, Option.bind_eq_some_iff] at passed
    obtain ⟨⟨inside, deep⟩, stepped, passed⟩ := passed
    rw [along, next_deeper more stepped]
    exact ih passed

-- Without the contents of its literals a text has the same parentheses.
theorem parens_hollow (quoted : Bool) (depth : Nat) (chars : List Char) :
    parensFrom depth (hollow quoted chars) = (along chars ⟨quoted, depth⟩).any (·.depth == 0) := by
  induction quoted, chars using hollow.induct generalizing depth with
  | case1 => rfl
  | case2 rest ih => exact ih depth
  | case3 quoted rest single ih =>
    rw [hollow, if_pos rfl, along_quote]
    · exact ih depth
    · exact single
  | case4 c rest outside single ih =>
    rw [hollow, if_neg outside, if_pos rfl, along_quoted outside]
    · exact ih depth
    · exact single
  | case5 quoted c rest single outside inside ih =>
    rw [hollow, if_neg outside, if_neg inside, parensFrom, along, next, if_neg outside, if_neg inside]
    · by_cases opening : c = '('
      · rw [if_pos opening, if_pos opening]
        exact ih (depth + 1)
      · rw [if_neg opening, if_neg opening]
        by_cases closing : c = ')'
        · rw [if_pos closing, if_pos closing]
          by_cases empty : depth = 0
          · rw [if_pos empty, empty]
            rfl
          · rw [if_neg empty, bne_iff_ne.2 empty]
            exact ih (depth - 1)
        · rw [if_neg closing, if_neg closing]
          exact ih depth
    · exact single

theorem along_double_quotes (value rest : List Char) (depth : Nat) :
    along (doubleQuotes value ++ rest) ⟨true, depth⟩ = along rest ⟨true, depth⟩ := by
  induction value with
  | nil => rfl
  | cons c value ih =>
    by_cases quote : c = '\''
    · rw [doubleQuotes, if_pos quote]
      exact ih
    · rw [doubleQuotes, if_neg quote, List.cons_append, along_quoted quote]
      exact ih

theorem alike_outside {a b : List Char} (alike : Alike a b) (depth : Nat) {place : Nesting}
    (passed : along a ⟨false, depth⟩ = some place) : place.quoted = false := by
  induction alike generalizing depth with
  | nil =>
    cases passed
    rfl
  | other c a b outside rest ih =>
    rw [along] at passed
    rcases next_outside outside depth with closed | ⟨inner, stepped⟩
    · rw [closed] at passed
      cases passed
    · rw [stepped] at passed
      exact ih inner passed
  | literal x y a b rest ih =>
    rw [along_quote, Bool.not_false, along_double_quotes, along_quote] at passed
    exact ih depth passed

-- A literal that the text leaves again is written with doubled quotes inside.
theorem literal_of_along {chars : List Char} {depth deep : Nat}
    (passed : along chars ⟨true, depth⟩ = some ⟨false, deep⟩) :
    ∃ value rest, chars = doubleQuotes value ++ '\'' :: rest ∧ along rest ⟨false, depth⟩ = some ⟨false, deep⟩ := by
  induction chars with
  | nil => cases passed
  | cons c rest ih =>
    by_cases quote : c = '\''
    · subst quote
      exact ⟨[], rest, rfl, passed⟩
    · rw [along_quoted quote] at passed
      obtain ⟨value, others, rfl, outside⟩ := ih passed
      exact ⟨c :: value, others, by rw [doubleQuotes, if_neg quote, List.cons_append], outside⟩

theorem alike_of_along {chars : List Char} {depth deep : Nat}
    (passed : along chars ⟨false, depth⟩ = some ⟨false, deep⟩) : ∃ twin, Alike chars twin := by
  generalize bound : chars.length = size
  induction size using Nat.strongRecOn generalizing chars depth with
  | ind size ih =>
    cases chars with
    | nil => exact ⟨[], .nil⟩
    | cons c rest =>
      by_cases quote : c = '\''
      · subst quote
        obtain ⟨value, others, rfl, outside⟩ := literal_of_along passed
        simp only [List.length_cons, List.length_append] at bound
        obtain ⟨twin, alike⟩ := ih others.length (by omega) outside rfl
        exact ⟨_, .literal value value others twin alike⟩
      · rw [along, Option.bind_eq_some_iff] at passed
        obtain ⟨place, stepped, passed⟩ := passed
        rcases next_outside quote depth with closed | ⟨inner, same⟩
        · rw [closed] at stepped
          cases stepped
        · rw [same] at stepped
          cases stepped
          obtain ⟨twin, alike⟩ := ih rest.length (by rw [← bound]; exact Nat.lt_succ_self _) passed rfl
          exact ⟨_, .other c rest twin quote alike⟩

theorem balanced_iff (text : String) : Balanced text ↔ along text.toList ⟨false, 0⟩ = some ⟨false, 0⟩ := by
  have parens : parensMatch text = (along text.toList ⟨false, 0⟩).any (·.depth == 0) := by
    rw [parensMatch, eraseLiterals, String.toList_ofList, parens_hollow]
  constructor
  · intro balanced
    obtain ⟨twin, alike⟩ := balanced.closed
    have matched := balanced.matched
    rw [parens, Option.any_eq_true] at matched
    obtain ⟨⟨quoted, depth⟩, passed, ended⟩ := matched
    cases alike_outside alike 0 passed
    cases beq_iff_eq.1 ended
    exact passed
  · intro passed
    refine ⟨alike_of_along passed, ?_⟩
    rw [parens, passed]
    rfl

instance (text : String) : Decidable (Balanced text) :=
  decidable_of_iff _ (balanced_iff text).symm

theorem balanced_along {text : String} (balanced : Balanced text) (depth : Nat) :
    along text.toList ⟨false, depth⟩ = some ⟨false, depth⟩ := by
  have deeper := along_deeper depth ((balanced_iff text).1 balanced)
  rwa [Nat.zero_add] at deeper

theorem balanced_plain (text : String) (plain : Plain text.toList) : Balanced text :=
  (balanced_iff text).2 (along_plain plain _)

theorem balanced_append {left right : String} (leftBalanced : Balanced left) (rightBalanced : Balanced right) :
    Balanced (left ++ right) := by
  rw [balanced_iff, String.toList_append, along_past (balanced_along leftBalanced 0)]
  exact balanced_along rightBalanced 0

theorem balanced_respell (dialect : Dialect) {text : String} (balanced : Balanced text) :
    Balanced (dialect.respell text) := by
  rw [balanced_iff, Dialect.along_respell]
  exact balanced_along balanced 0

end Text

end PipeSql

import Mathlib.Data.List.Forall2
import PipeSql.Proofs.Script.Recognizer

set_option autoImplicit false

namespace PipeSql.Recognizer

variable {α β ι : Type}

-- Exactly the tokens before the rest are taken.
def Reads (reader : Recognizer α) (tokens rest : List Token) (property : α → Prop) : Prop :=
  ∀ cursor : Cursor, cursor.tokens = tokens ++ rest →
    ∃ value behind, (reader cursor).result = some (value, behind) ∧ behind.tokens = rest ∧ property value

def Refuses (reader : Recognizer α) (tokens : List Token) : Prop :=
  ∀ cursor : Cursor, cursor.tokens = tokens → (reader cursor).result = none

theorem reads_mono {reader : Recognizer α} {tokens rest : List Token} {strong weak : α → Prop}
    (reads : Reads reader tokens rest strong) (implied : ∀ value, strong value → weak value) :
    Reads reader tokens rest weak := by
  intro cursor ahead
  obtain ⟨value, behind, result, left, holds⟩ := reads cursor ahead
  exact ⟨value, behind, result, left, implied value holds⟩

theorem reads_pure {value : α} {rest : List Token} {property : α → Prop} (holds : property value) :
    Reads (pure value) [] rest property :=
  fun cursor ahead => ⟨value, cursor, rfl, ahead, holds⟩

theorem bind_found {first : Recognizer α} {cursor between : Cursor} {value : α}
    (found : (first cursor).result = some (value, between)) (next : α → Recognizer β) :
    ((first >>= next) cursor).result = (next value between).result := by
  rw [bind_result, found]
  rfl

theorem reads_bind {first : Recognizer α} {next : α → Recognizer β} {tokens more rest : List Token}
    {property : α → Prop} {outcome : β → Prop} (front : Reads first tokens (more ++ rest) property)
    (back : ∀ value, property value → Reads (next value) more rest outcome) :
    Reads (first >>= next) (tokens ++ more) rest outcome := by
  intro cursor ahead
  rw [List.append_assoc] at ahead
  obtain ⟨value, between, found, left, holds⟩ := front cursor ahead
  obtain ⟨result, behind, ended, remaining, outcomeHolds⟩ := back value holds between left
  exact ⟨result, behind, (bind_found found next).trans ended, remaining, outcomeHolds⟩

theorem reads_map {reader : Recognizer α} {change : α → β} {tokens rest : List Token} {property : α → Prop}
    {outcome : β → Prop} (reads : Reads reader tokens rest property)
    (changed : ∀ value, property value → outcome (change value)) :
    Reads (do return change (← reader)) tokens rest outcome := by
  rw [← List.append_nil tokens]
  exact reads_bind reads fun value holds => reads_pure (changed value holds)

theorem refuses_bind {first : Recognizer α} {tokens : List Token} (refuses : Refuses first tokens)
    (next : α → Recognizer β) : Refuses (first >>= next) tokens := by
  intro cursor ahead
  rw [bind_result, refuses cursor ahead]
  rfl

theorem refuses_after {first : Recognizer α} {next : α → Recognizer β} {tokens rest : List Token} {property : α → Prop}
    (reads : Reads first tokens rest property) (refuses : ∀ value, property value → Refuses (next value) rest) :
    Refuses (first >>= next) (tokens ++ rest) := by
  intro cursor ahead
  obtain ⟨value, between, found, left, holds⟩ := reads cursor ahead
  exact (bind_found found next).trans (refuses value holds between left)

theorem reads_next {wanted : String} {use : Token → Option α} {token : Token} {value : α} {rest : List Token}
    (used : use token = some value) : Reads (next wanted use) [token] rest (· = value) := by
  rintro ⟨index, offset, ahead⟩ tokens
  cases ahead with
  | nil => cases tokens
  | cons lexeme ahead =>
    obtain ⟨same, left⟩ := List.cons.inj tokens
    refine ⟨value, ⟨index + 1, lexeme.span.stop, ahead⟩, ?_, left, rfl⟩
    simp only [next, same, used]

theorem refuses_next {wanted : String} {use : Token → Option α} {tokens : List Token}
    (unused : ∀ token, tokens.head? = some token → use token = none) : Refuses (next wanted use) tokens := by
  rintro ⟨index, offset, ahead⟩ same
  cases ahead with
  | nil => rfl
  | cons lexeme ahead =>
    have none := unused lexeme.token (by rw [← same]; rfl)
    simp only [next, none, refuse]

theorem reads_token (token : Token) (rest : List Token) : Reads (Recognizer.token token) [token] rest fun _ => True :=
  reads_mono (reads_next (by rw [if_pos rfl])) fun _ _ => trivial

theorem reads_keyword (word : Keyword) (rest : List Token) :
    Reads (keyword word) [.keyword word] rest fun _ => True :=
  reads_token _ rest

theorem reads_symbol (mark : Symbol) (rest : List Token) : Reads (symbol mark) [.symbol mark] rest fun _ => True :=
  reads_token _ rest

theorem refuses_token {token : Token} {tokens : List Token} (other : tokens.head? ≠ some token) :
    Refuses (Recognizer.token token) tokens := by
  refine refuses_next fun found head => if_neg ?_
  rintro rfl
  exact other head

theorem reads_at_end : Reads atEnd [] [] fun _ => True := by
  rintro ⟨index, offset, ahead⟩ tokens
  cases ahead with
  | nil => exact ⟨(), ⟨index, offset, []⟩, rfl, rfl, trivial⟩
  | cons lexeme ahead => cases tokens

theorem reads_labelled {label : String} {inner : Recognizer α} {tokens rest : List Token} {property : α → Prop}
    (reads : Reads inner tokens rest property) : Reads (labelled label inner) tokens rest property := by
  intro cursor ahead
  rw [labelled_result]
  exact reads cursor ahead

theorem refuses_labelled {label : String} {inner : Recognizer α} {tokens : List Token}
    (refuses : Refuses inner tokens) : Refuses (labelled label inner) tokens := by
  intro cursor ahead
  rw [labelled_result]
  exact refuses cursor ahead

theorem reads_spanned {inner : Recognizer α} {tokens rest : List Token} {property : α → Prop}
    (reads : Reads inner tokens rest property) : Reads (spanned inner) tokens rest fun found => property found.1 := by
  intro cursor ahead
  obtain ⟨value, behind, result, left, holds⟩ := reads cursor ahead
  have marked : ∃ span, (spanned inner cursor).result = some ((value, span), behind) := by
    simp only [spanned, result]
    exact ⟨_, rfl⟩
  obtain ⟨span, found⟩ := marked
  exact ⟨(value, span), behind, found, left, holds⟩

theorem reads_spanned_bind {inner : Recognizer α} {next : α × Span → Recognizer β} {tokens rest : List Token}
    {outcome : β → Prop} (property : α → Prop) (reads : Reads inner tokens rest property)
    (after : ∀ value span, property value → Reads (next (value, span)) [] rest outcome) :
    Reads (spanned inner >>= next) tokens rest outcome := by
  rw [← List.append_nil tokens]
  exact reads_bind (reads_spanned reads) fun found holds => after found.1 found.2 holds

theorem refuses_spanned {inner : Recognizer α} {tokens : List Token} (refuses : Refuses inner tokens) :
    Refuses (spanned inner) tokens := by
  intro cursor ahead
  simp only [spanned, refuses cursor ahead]
  rfl

theorem reads_first {first second : Recognizer α} {tokens rest : List Token} {property : α → Prop}
    (reads : Reads first tokens rest property) : Reads (orElse first second) tokens rest property := by
  intro cursor ahead
  obtain ⟨value, behind, result, left, holds⟩ := reads cursor ahead
  refine ⟨value, behind, ?_, left, holds⟩
  rw [or_else_result, result]
  rfl

theorem reads_second {first second : Recognizer α} {tokens rest : List Token} {property : α → Prop}
    (refuses : Refuses first (tokens ++ rest)) (reads : Reads second tokens rest property) :
    Reads (orElse first second) tokens rest property := by
  intro cursor ahead
  obtain ⟨value, behind, result, left, holds⟩ := reads cursor ahead
  refine ⟨value, behind, ?_, left, holds⟩
  rw [or_else_result, refuses cursor ahead, result]
  rfl

theorem refuses_or_else {first second : Recognizer α} {tokens : List Token} (left : Refuses first tokens)
    (right : Refuses second tokens) : Refuses (orElse first second) tokens := by
  intro cursor ahead
  rw [or_else_result, left cursor ahead, right cursor ahead]
  rfl

theorem refuses_first_of {readers : List (Recognizer α)} {tokens : List Token}
    (each : ∀ reader ∈ readers, Refuses reader tokens) : Refuses (firstOf readers) tokens := by
  induction readers with
  | nil => exact fun _ _ => rfl
  | cons reader others ih =>
    exact refuses_or_else (each reader (.head _)) (ih fun other member => each other (.tail _ member))

theorem reads_some {inner : Recognizer α} {tokens rest : List Token} {property : α → Prop}
    (reads : Reads inner tokens rest property) :
    Reads (optional inner) tokens rest fun found => ∃ value, found = some value ∧ property value :=
  reads_first (reads_map reads fun value holds => ⟨value, rfl, holds⟩)

theorem reads_none {inner : Recognizer α} {rest : List Token} (refuses : Refuses inner rest) :
    Reads (optional inner) [] rest (· = none) :=
  reads_second (refuses_bind refuses _) (reads_pure rfl)

theorem reads_no_more {inner : Recognizer α} {rest : List Token} (refuses : Refuses inner rest) :
    Reads (many inner) [] rest (· = []) := by
  intro cursor ahead
  have none : Reads (upTo inner (cursor.ahead.length + 1)) [] rest (· = []) :=
    reads_second (refuses_bind refuses _) (reads_pure rfl)
  exact none cursor ahead

theorem reads_without {first : Recognizer α} {second : Recognizer β} {tokens rest : List Token} {property : α → Prop}
    (reads : Reads first tokens rest property) (refuses : Refuses second rest) :
    Reads (do return (← first, ← optional second)) tokens rest fun found => property found.1 ∧ found.2 = none := by
  rw [← List.append_nil tokens]
  refine reads_bind reads fun value holds => ?_
  exact reads_map (reads_none refuses) fun _ none => ⟨holds, none⟩

theorem reads_with {first : Recognizer α} {second : Recognizer β} {tokens more rest : List Token} {property : α → Prop}
    {outcome : β → Prop} (reads : Reads first tokens (more ++ rest) property) (next : Reads second more rest outcome) :
    Reads (do return (← first, ← optional second)) (tokens ++ more) rest fun found =>
      property found.1 ∧ ∃ value, found.2 = some value ∧ outcome value :=
  reads_bind reads fun _ holds => reads_map (reads_some next) fun _ found => ⟨holds, found⟩

-- The follow condition says what may stand behind an item: the rest, or a further item.
theorem reads_up_to {inner : Recognizer α} {print : ι → List Token} {related : ι → α → Prop}
    {follow : List Token → Prop} {rest : List Token} (items : List ι)
    (each : ∀ item ∈ items, ∀ following, follow following → Reads inner (print item) following (related item))
    (between : ∀ item ∈ items, ∀ more, follow (print item ++ more)) (behind : follow rest)
    (refuses : Refuses inner rest) (bound : Nat) (enough : items.length ≤ bound) :
    Reads (upTo inner bound) (items.flatMap print) rest (List.Forall₂ related items) := by
  induction items generalizing bound with
  | nil =>
    cases bound with
    | zero => exact reads_pure .nil
    | succ bound => exact reads_second (refuses_bind refuses _) (reads_pure .nil)
  | cons item items ih =>
    obtain ⟨bound, rfl⟩ : ∃ fewer, bound = fewer + 1 := ⟨bound - 1, by rw [List.length_cons] at enough; omega⟩
    have shorter := ih (fun other member => each other (.tail _ member))
      (fun other member => between other (.tail _ member)) bound (by simpa using enough)
    have following : follow (items.flatMap print ++ rest) := by
      cases items with
      | nil => exact behind
      | cons next items =>
        rw [List.flatMap_cons, List.append_assoc]
        exact between next (.tail _ (.head _)) _
    refine reads_first (reads_bind (each item (.head _) _ following) fun value holds => ?_)
    exact reads_map shorter fun values others => .cons holds others

theorem reads_many {inner : Recognizer α} {print : ι → List Token} {related : ι → α → Prop}
    {follow : List Token → Prop} {rest : List Token} (items : List ι)
    (each : ∀ item ∈ items, ∀ following, follow following → Reads inner (print item) following (related item))
    (between : ∀ item ∈ items, ∀ more, follow (print item ++ more)) (filled : ∀ item ∈ items, print item ≠ [])
    (behind : follow rest) (refuses : Refuses inner rest) :
    Reads (many inner) (items.flatMap print) rest (List.Forall₂ related items) := by
  intro cursor ahead
  have room : items.length ≤ cursor.ahead.length + 1 := by
    have all : items.length ≤ (items.flatMap print).length := by
      clear each between ahead
      induction items with
      | nil => exact Nat.le_refl 0
      | cons item items ih =>
        have one := List.length_pos_iff.2 (filled item (.head _))
        have others := ih fun other member => filled other (.tail _ member)
        rw [List.flatMap_cons, List.length_append, List.length_cons]
        omega
    have total := congrArg List.length ahead
    rw [Cursor.tokens, List.length_map, List.length_append] at total
    omega
  exact reads_up_to items each between behind refuses _ room cursor ahead

theorem many_more {inner : Recognizer α} {cursor between behind : Cursor} {value : α} {values : List α}
    (first : (inner cursor).result = some (value, between)) (passed : cursor.ahead.length = between.ahead.length + 1)
    (others : (many inner between).result = some (values, behind)) :
    (many inner cursor).result = some (value :: values, behind) := by
  have further : (upTo inner cursor.ahead.length between).result = some (values, behind) := by
    rw [passed]
    exact others
  rw [many, upTo, or_else_result, bind_found first, bind_found further]
  rfl

end PipeSql.Recognizer

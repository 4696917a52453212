import PipeSql.Proofs.Token.Sound
import PipeSql.Script.Recognizer

set_option autoImplicit false

namespace PipeSql

def Cursor.tokens (cursor : Cursor) : List Token :=
  cursor.ahead.map Lexeme.token

def Cursor.Sound (cursor : Cursor) : Prop :=
  ∀ token ∈ cursor.tokens, token.Sound

namespace Recognizer

variable {α β : Type}

def Gives (reader : Recognizer α) (property : α → Prop) : Prop :=
  ∀ (cursor : Cursor) (value : α) (behind : Cursor), cursor.Sound →
    (reader cursor).result = some (value, behind) → property value ∧ behind.Sound

theorem gives_mono {reader : Recognizer α} {weak strong : α → Prop} (given : Gives reader strong)
    (implied : ∀ value, strong value → weak value) : Gives reader weak := by
  intro cursor value behind sound found
  obtain ⟨holds, rest⟩ := given cursor value behind sound found
  exact ⟨implied value holds, rest⟩

theorem gives_true {reader : Recognizer α} {property : α → Prop} (given : Gives reader property) :
    Gives reader fun _ => True :=
  gives_mono given fun _ _ => trivial

theorem gives_pure {value : α} {property : α → Prop} (holds : property value) :
    Gives (pure value) property := by
  intro cursor found behind sound result
  cases result
  exact ⟨holds, sound⟩

theorem bind_result (first : Recognizer α) (next : α → Recognizer β) (cursor : Cursor) :
    ((first >>= next) cursor).result =
      (first cursor).result.bind fun found => (next found.1 found.2).result := by
  dsimp only [bind]
  rcases first cursor with ⟨stall, _ | ⟨value, behind⟩⟩ <;> rfl

theorem gives_bind {first : Recognizer α} {next : α → Recognizer β} {property : α → Prop}
    {outcome : β → Prop} (given : Gives first property)
    (after : ∀ value, property value → Gives (next value) outcome) : Gives (first >>= next) outcome := by
  intro cursor value behind sound found
  rw [bind_result] at found
  obtain ⟨⟨middle, between⟩, read, rest⟩ := Option.bind_eq_some_iff.1 found
  obtain ⟨holds, soundBetween⟩ := given cursor middle between sound read
  exact after middle holds between value behind soundBetween rest

theorem gives_map {reader : Recognizer α} {change : α → β} {property : α → Prop} {outcome : β → Prop}
    (given : Gives reader property) (changed : ∀ value, property value → outcome (change value)) :
    Gives (change <$> reader) outcome :=
  gives_bind given fun value holds => gives_pure (changed value holds)

theorem gives_fail {property : α → Prop} : Gives (fail : Recognizer α) property := by
  intro cursor value behind sound found
  cases found

theorem gives_next {wanted : String} {use : Token → Option α} {property : α → Prop}
    (used : ∀ token value, token.Sound → use token = some value → property value) :
    Gives (next wanted use) property := by
  rintro ⟨index, offset, ahead⟩ value behind sound found
  cases ahead with
  | nil => cases found
  | cons lexeme ahead =>
    cases taken : use lexeme.token with
    | none => simp [next, taken, refuse] at found
    | some result =>
      simp only [next, taken, Option.some.injEq, Prod.mk.injEq] at found
      obtain ⟨rfl, rfl⟩ := found
      refine ⟨used lexeme.token _ (sound _ (by simp [Cursor.tokens])) taken, ?_⟩
      intro token member
      exact sound token (by simp_all [Cursor.tokens])

theorem gives_accept {use : Token → Option α} {property : α → Prop}
    (used : ∀ token value, token.Sound → use token = some value → property value) :
    Gives (accept use) property :=
  gives_next used

theorem gives_token (expected : Token) : Gives (token expected) fun _ => True :=
  gives_next fun _ _ _ _ => trivial

theorem gives_keyword (word : Keyword) : Gives (keyword word) fun _ => True :=
  gives_token _

theorem gives_symbol (mark : Symbol) : Gives (symbol mark) fun _ => True :=
  gives_token _

theorem gives_at_end : Gives atEnd fun _ => True := by
  intro cursor value behind sound found
  unfold atEnd at found
  split at found
  · cases found
    exact ⟨trivial, sound⟩
  · cases found

theorem labelled_result (label : String) (inner : Recognizer α) (cursor : Cursor) :
    (labelled label inner cursor).result = (inner cursor).result := by
  simp only [labelled]
  split
  · split <;> rfl
  · rfl

theorem gives_labelled {label : String} {inner : Recognizer α} {property : α → Prop}
    (given : Gives inner property) : Gives (labelled label inner) property := by
  intro cursor value behind sound found
  rw [labelled_result] at found
  exact given cursor value behind sound found

theorem or_else_result (first second : Recognizer α) (cursor : Cursor) :
    (orElse first second cursor).result = (first cursor).result.or (second cursor).result := by
  unfold orElse
  rcases first cursor with ⟨stall, _ | found⟩ <;> rfl

theorem gives_or_else {first second : Recognizer α} {property : α → Prop}
    (left : Gives first property) (right : Gives second property) :
    Gives (orElse first second) property := by
  intro cursor value behind sound found
  rw [or_else_result] at found
  rcases Option.or_eq_some_iff.1 found with found | ⟨-, found⟩
  · exact left cursor value behind sound found
  · exact right cursor value behind sound found

theorem gives_first_of {readers : List (Recognizer α)} {property : α → Prop}
    (given : ∀ reader ∈ readers, Gives reader property) : Gives (firstOf readers) property := by
  induction readers with
  | nil => exact gives_fail
  | cons reader others ih =>
    exact gives_or_else (given reader (by simp)) (ih fun other member => given other (by simp [member]))

theorem gives_optional {inner : Recognizer α} {property : α → Prop} (given : Gives inner property) :
    Gives (optional inner) fun found => ∀ value, found = some value → property value := by
  refine gives_or_else (gives_map given ?_) (gives_pure ?_)
  · intro value holds found same
    cases same
    exact holds
  · intro value impossible
    cases impossible

theorem gives_up_to {inner : Recognizer α} {property : α → Prop} (given : Gives inner property)
    (bound : Nat) : Gives (upTo inner bound) fun values => ∀ value ∈ values, property value := by
  induction bound with
  | zero => exact gives_pure (by simp)
  | succ bound ih =>
    refine gives_or_else ?_ (gives_pure (by simp))
    refine gives_bind given fun first holds => ?_
    refine gives_bind ih fun others rest => gives_pure ?_
    intro value member
    rcases List.mem_cons.1 member with rfl | member
    · exact holds
    · exact rest value member

theorem gives_many {inner : Recognizer α} {property : α → Prop} (given : Gives inner property) :
    Gives (many inner) fun values => ∀ value ∈ values, property value :=
  fun cursor => gives_up_to given (cursor.ahead.length + 1) cursor

theorem gives_separated {inner : Recognizer α} {separator : Recognizer Unit} {property : α → Prop}
    (given : Gives inner property) (between : Gives separator fun _ => True) :
    Gives (separated inner separator) fun values => values ≠ [] ∧ ∀ value ∈ values, property value := by
  refine gives_bind given fun first holds => ?_
  refine gives_bind (gives_many (gives_bind between fun _ _ => given)) fun others rest => gives_pure ?_
  refine ⟨by simp, ?_⟩
  intro value member
  rcases List.mem_cons.1 member with rfl | member
  · exact holds
  · exact rest value member

theorem gives_separated_or_none {inner : Recognizer α} {separator : Recognizer Unit} {property : α → Prop}
    (given : Gives inner property) (between : Gives separator fun _ => True) :
    Gives (separatedOrNone inner separator) fun values => ∀ value ∈ values, property value := by
  refine gives_or_else (gives_mono (gives_separated given between) ?_) (gives_pure (by simp))
  intro values holds
  exact holds.2

theorem gives_spanned {inner : Recognizer α} (property : α → Prop) (given : Gives inner property) :
    Gives (spanned inner) fun found => property found.1 := by
  intro cursor value behind sound found
  simp only [spanned, Option.map_eq_some_iff, Prod.exists, Prod.mk.injEq] at found
  obtain ⟨inside, after, read, rfl, rfl⟩ := found
  exact given cursor inside after sound read

theorem gives_spanned_bind {inner : Recognizer α} {next : α × Span → Recognizer β} {outcome : β → Prop}
    (property : α → Prop) (given : Gives inner property)
    (after : ∀ value span, property value → Gives (next (value, span)) outcome) :
    Gives (spanned inner >>= next) outcome :=
  gives_bind (gives_spanned property given) fun found holds => after found.1 found.2 holds

end Recognizer

end PipeSql

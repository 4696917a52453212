import Mathlib.Data.List.Forall2
import PipeSql.Proofs.Script.Recognizer

set_option autoImplicit false

namespace PipeSql.Recognizer

variable {α β : Type}

def Takes (reader : Recognizer α) (relation : α → List Lexeme → Prop) : Prop :=
  ∀ (cursor : Cursor) (value : α) (behind : Cursor), (reader cursor).result = some (value, behind) →
    ∃ taken, cursor.ahead = taken ++ behind.ahead ∧ relation value taken

theorem takes_mono {reader : Recognizer α} {strong weak : α → List Lexeme → Prop} (given : Takes reader strong)
    (implied : ∀ value taken, strong value taken → weak value taken) : Takes reader weak := by
  intro cursor value behind found
  obtain ⟨taken, ahead, holds⟩ := given cursor value behind found
  exact ⟨taken, ahead, implied value taken holds⟩

theorem takes_pure {value : α} {relation : α → List Lexeme → Prop} (holds : relation value []) :
    Takes (pure value) relation := by
  intro cursor found behind result
  cases result
  exact ⟨[], rfl, holds⟩

-- What the second takes stands behind what the first took.
theorem takes_bind {first : Recognizer α} {next : α → Recognizer β} {relation : α → List Lexeme → Prop}
    {outcome : β → List Lexeme → Prop} (front : Takes first relation)
    (back : ∀ value taken, relation value taken →
      Takes (next value) fun result more => outcome result (taken ++ more)) :
    Takes (first >>= next) outcome := by
  intro cursor result behind found
  rw [bind_result] at found
  obtain ⟨⟨value, between⟩, read, rest⟩ := Option.bind_eq_some_iff.1 found
  obtain ⟨taken, ahead, holds⟩ := front cursor value between read
  obtain ⟨more, further, outcomeHolds⟩ := back value taken holds between result behind rest
  refine ⟨taken ++ more, ?_, outcomeHolds⟩
  rw [ahead, further, List.append_assoc]

theorem takes_fail {relation : α → List Lexeme → Prop} : Takes (fail : Recognizer α) relation := by
  intro cursor value behind found
  cases found

theorem takes_next {wanted : String} {use : Token → Option α} {relation : α → List Lexeme → Prop}
    (used : ∀ lexeme value, use lexeme.token = some value → relation value [lexeme]) :
    Takes (next wanted use) relation := by
  rintro ⟨index, offset, ahead⟩ value behind found
  cases ahead with
  | nil => cases found
  | cons lexeme ahead =>
    cases accepted : use lexeme.token with
    | none => simp [next, accepted, refuse] at found
    | some result =>
      simp only [next, accepted, Option.some.injEq, Prod.mk.injEq] at found
      obtain ⟨rfl, rfl⟩ := found
      exact ⟨[lexeme], rfl, used lexeme result accepted⟩

theorem takes_token (expected : Token) :
    Takes (token expected) fun _ taken => ∃ lexeme : Lexeme, lexeme.token = expected ∧ taken = [lexeme] := by
  apply takes_next
  intro lexeme value used
  by_cases same : lexeme.token = expected
  · exact ⟨lexeme, same, rfl⟩
  · rw [if_neg same] at used
    cases used

theorem takes_labelled {label : String} {inner : Recognizer α} {relation : α → List Lexeme → Prop}
    (given : Takes inner relation) : Takes (labelled label inner) relation := by
  intro cursor value behind found
  rw [labelled_result] at found
  exact given cursor value behind found

theorem takes_or_else {first second : Recognizer α} {relation : α → List Lexeme → Prop}
    (left : Takes first relation) (right : Takes second relation) : Takes (orElse first second) relation := by
  intro cursor value behind found
  rw [or_else_result] at found
  rcases Option.or_eq_some_iff.1 found with found | ⟨-, found⟩
  · exact left cursor value behind found
  · exact right cursor value behind found

theorem takes_first_of {readers : List (Recognizer α)} {relation : α → List Lexeme → Prop}
    (given : ∀ reader ∈ readers, Takes reader relation) : Takes (firstOf readers) relation := by
  induction readers with
  | nil => exact takes_fail
  | cons reader others ih =>
    exact takes_or_else (given reader (.head _)) (ih fun other member => given other (.tail _ member))

theorem takes_spanned {inner : Recognizer α} {relation : α → List Lexeme → Prop} (given : Takes inner relation) :
    Takes (spanned inner) fun found taken => relation found.1 taken := by
  intro cursor value behind found
  simp only [spanned, Option.map_eq_some_iff, Prod.exists, Prod.mk.injEq] at found
  obtain ⟨inside, after, read, rfl, rfl⟩ := found
  exact given cursor inside after read

def Repeated {τ : Type} (relation : α → List τ → Prop) (values : List α) (taken : List τ) : Prop :=
  ∃ pieces, List.Forall₂ relation values pieces ∧ taken = pieces.flatten

theorem repeated_nil {τ : Type} {relation : α → List τ → Prop} : Repeated relation [] [] :=
  ⟨[], .nil, rfl⟩

theorem repeated_cons {τ : Type} {relation : α → List τ → Prop} {value : α} {values : List α} {taken more : List τ}
    (first : relation value taken) (rest : Repeated relation values more) :
    Repeated relation (value :: values) (taken ++ more) := by
  obtain ⟨pieces, each, rfl⟩ := rest
  exact ⟨taken :: pieces, .cons first each, rfl⟩

theorem takes_many {inner : Recognizer α} {relation : α → List Lexeme → Prop} (given : Takes inner relation) :
    Takes (many inner) (Repeated relation) := by
  have bounded : ∀ bound, Takes (upTo inner bound) (Repeated relation) := by
    intro bound
    induction bound with
    | zero => exact takes_pure repeated_nil
    | succ bound ih =>
      apply takes_or_else _ (takes_pure repeated_nil)
      refine takes_bind given fun first taken holds => ?_
      refine takes_bind ih fun others more rest => takes_pure ?_
      rw [List.append_nil]
      exact repeated_cons holds rest
  exact fun cursor => bounded (cursor.ahead.length + 1) cursor

-- The same of the tokens alone.
def Writes (reader : Recognizer α) (relation : α → List Token → Prop) : Prop :=
  Takes reader fun value taken => relation value (taken.map Lexeme.token)

section

variable {relation : α → List Token → Prop} {outcome : β → List Token → Prop}

theorem writes_pure {value : α} (holds : relation value []) : Writes (pure value) relation :=
  takes_pure holds

theorem writes_bind {first : Recognizer α} {next : α → Recognizer β} (front : Writes first relation)
    (back : ∀ value tokens, relation value tokens →
      Writes (next value) fun result more => outcome result (tokens ++ more)) :
    Writes (first >>= next) outcome := by
  refine takes_bind front fun value taken holds => ?_
  apply takes_mono (back value _ holds)
  intro result more related
  rw [List.map_append]
  exact related

theorem writes_map {reader : Recognizer α} {change : α → β} (given : Writes reader relation)
    (changed : ∀ value tokens, relation value tokens → outcome (change value) tokens) :
    Writes (change <$> reader) outcome := by
  refine writes_bind given fun value tokens holds => writes_pure ?_
  rw [List.append_nil]
  exact changed value tokens holds

theorem writes_mono {reader : Recognizer α} {weak : α → List Token → Prop} (given : Writes reader relation)
    (implied : ∀ value tokens, relation value tokens → weak value tokens) : Writes reader weak :=
  takes_mono given fun value taken => implied value (taken.map Lexeme.token)

theorem writes_accept {use : Token → Option α} (used : ∀ token value, use token = some value → relation value [token]) :
    Writes (accept use) relation :=
  takes_next fun lexeme value accepted => used lexeme.token value accepted

theorem writes_token (expected : Token) : Writes (token expected) fun _ tokens => tokens = [expected] := by
  apply takes_mono (takes_token expected)
  rintro _ _ ⟨lexeme, same, rfl⟩
  rw [← same]
  rfl

theorem writes_keyword (word : Keyword) : Writes (keyword word) fun _ tokens => tokens = [.keyword word] :=
  writes_token _

-- A fixed token in front of the rest.
theorem writes_after_token {expected : Token} {next : Unit → Recognizer β}
    (back : Writes (next ()) fun result more => outcome result (expected :: more)) :
    Writes (token expected >>= next) outcome := by
  apply writes_bind (writes_token expected)
  rintro _ _ rfl
  exact back

theorem writes_labelled {label : String} {inner : Recognizer α} (given : Writes inner relation) :
    Writes (labelled label inner) relation :=
  takes_labelled given

theorem writes_after_labelled {label : String} {expected : Token} {next : Unit → Recognizer β}
    (back : Writes (next ()) fun result more => outcome result (expected :: more)) :
    Writes (labelled label (token expected) >>= next) outcome := by
  apply writes_bind (writes_labelled (writes_token expected))
  rintro _ _ rfl
  exact back

theorem writes_or_else {first second : Recognizer α} (left : Writes first relation) (right : Writes second relation) :
    Writes (orElse first second) relation :=
  takes_or_else left right

theorem writes_first_of {readers : List (Recognizer α)} (given : ∀ reader ∈ readers, Writes reader relation) :
    Writes (firstOf readers) relation :=
  takes_first_of given

def Perhaps (relation : α → List Token → Prop) : Option α → List Token → Prop
  | none, tokens => tokens = []
  | some value, tokens => relation value tokens

theorem writes_optional {inner : Recognizer α} (given : Writes inner relation) :
    Writes (optional inner) (Perhaps relation) :=
  writes_or_else (writes_map given fun _ _ holds => holds) (writes_pure rfl)

theorem writes_many {inner : Recognizer α} (given : Writes inner relation) :
    Writes (many inner) (Repeated relation) := by
  apply takes_mono (takes_many given)
  rintro values taken ⟨pieces, each, rfl⟩
  refine ⟨pieces.map (List.map Lexeme.token), ?_, ?_⟩
  · rw [List.forall₂_map_right_iff]
    exact each
  · rw [List.map_flatten]

theorem writes_spanned {inner : Recognizer α} (given : Writes inner relation) :
    Writes (spanned inner) fun found tokens => relation found.1 tokens :=
  takes_spanned given

theorem writes_spanned_bind {inner : Recognizer α} {next : α × Span → Recognizer β} (relation : α → List Token → Prop)
    (given : Writes inner relation) (after : ∀ value span tokens, relation value tokens →
      Writes (next (value, span)) fun result more => outcome result (tokens ++ more)) :
    Writes (spanned inner >>= next) outcome :=
  writes_bind (writes_spanned given) fun found tokens holds => after found.1 found.2 tokens holds

end

end PipeSql.Recognizer

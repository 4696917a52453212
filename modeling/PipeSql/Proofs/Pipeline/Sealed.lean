import PipeSql.Proofs.Pipeline.OfScript

set_option autoImplicit false

namespace PipeSql

open Lowering

namespace Text

-- The text can stand behind an opening parenthesis and before a closing one.
structure Sealed (text : String) : Prop where
  starts : text.toList.head?.any (· != ')') = true
  ends : text.toList.getLast?.any (· != '(') = true

theorem starts_append {left : String} (starts : left.toList.head?.any (· != ')') = true) (right : String) :
    (left ++ right).toList.head?.any (· != ')') = true := by
  rw [String.toList_append]
  cases chars : left.toList with
  | nil =>
    rw [chars] at starts
    cases starts
  | cons c rest =>
    rw [chars] at starts
    exact starts

theorem ends_append (left : String) {right : String} (ends : right.toList.getLast?.any (· != '(') = true) :
    (left ++ right).toList.getLast?.any (· != '(') = true := by
  rw [String.toList_append, List.getLast?_append]
  cases last : right.toList.getLast? with
  | none =>
    rw [last] at ends
    cases ends
  | some c =>
    rw [last] at ends
    exact ends

theorem sealed_append {first last : String} (firstSealed : Sealed first) (middle : String) (lastSealed : Sealed last) :
    Sealed (first ++ middle ++ last) :=
  ⟨starts_append (starts_append firstSealed.starts middle) last, ends_append (first ++ middle) lastSealed.ends⟩

theorem sealed_chars {text : String} (filled : text.toList ≠ []) (plain : ∀ c ∈ text.toList, c ≠ ')' ∧ c ≠ '(') :
    Sealed text where
  starts := by
    rw [List.head?_eq_some_head filled]
    simpa using (plain _ (List.head_mem filled)).1
  ends := by
    rw [List.getLast?_eq_some_getLast filled]
    simpa using (plain _ (List.getLast_mem filled)).2

theorem sealed_word {word : String} (sound : isWord word.toList = true) : Sealed word := by
  refine sealed_chars (fun empty => ?_) fun c member => ?_
  · rw [empty] at sound
    cases sound
  · have part := Token.word_parts _ sound c member
    constructor <;> rintro rfl <;> exact absurd part (by decide)

theorem sealed_joined (separator : String) {texts : List String} (filled : texts ≠ [])
    (each : ∀ text ∈ texts, Sealed text) : Sealed (joinWith separator texts) := by
  induction texts with
  | nil => exact absurd rfl filled
  | cons first rest ih =>
    cases rest with
    | nil => exact each first (.head _)
    | cons second rest =>
      exact sealed_append (each first (.head _)) separator (ih (List.cons_ne_nil _ _) fun text member =>
        each text (.tail _ member))

theorem sealed_digits {digits : String} (sound : isDigits digits.toList = true) : Sealed digits := by
  rw [isDigits, Bool.and_eq_true, Bool.not_eq_true', List.isEmpty_eq_false_iff, List.all_eq_true] at sound
  refine sealed_chars sound.1 fun c member => ?_
  have digit := sound.2 c member
  constructor <;> rintro rfl <;> exact absurd digit (by decide)

theorem sealed_decimal {digits : String} (sound : (Token.decimal digits).Sound) : Sealed digits := by
  obtain ⟨whole, fraction, chars, wholeDigits, fractionDigits⟩ := sound
  have same : digits = String.ofList whole ++ "." ++ String.ofList fraction := by
    apply String.toList_inj.1
    simp [chars]
  rw [same]
  refine sealed_append (sealed_digits ?_) "." (sealed_digits ?_)
  · rwa [String.toList_ofList]
  · rwa [String.toList_ofList]

theorem sealed_literal (value : String) : Sealed (sqlLiteral value) :=
  ⟨starts_append (starts_append (by decide) _) _, ends_append _ (by decide)⟩

end Text

namespace Term

open Text

theorem table_wildcard_starts {table : String} (sound : (Token.tableWildcard table).Sound) :
    table.toList.head?.any (· != ')') = true := by
  obtain ⟨first, parts, chars, word, -⟩ := sound
  have same : table = String.ofList first ++ String.ofList (Token.pathChars parts) := by
    apply String.toList_inj.1
    simp [chars]
  rw [same]
  exact starts_append (sealed_word (by rwa [String.toList_ofList])).starts _

theorem strip_row_filled (scope : Scope) (parts : List String) (filled : parts ≠ []) : scope.stripRow parts ≠ [] := by
  unfold Scope.stripRow
  split
  · split
    · exact List.cons_ne_nil _ _
    · exact List.cons_ne_nil _ _
  · exact filled

end Term

namespace Chunk

open Text

variable {queryText : QueryText} {term : Term} {scope : Scope} {parameters met : List Parameter} {text : String}

theorem chunk_sealed (formed : term.WellFormed) {chunk : Chunk} (within : chunk.Within term)
    (lowered : chunk.text queryText scope parameters = .ok (text, met)) :
    (chunk.begins = true → text.toList.head?.any (· != ')') = true ∨ text = "" ∧ chunk.awaits = true) ∧
      (chunk.ends = true → text.toList.getLast?.any (· != '(') = true) := by
  have both : ∀ {written : String}, Sealed written →
      (chunk.begins = true → written.toList.head?.any (· != ')') = true ∨ written = "" ∧ chunk.awaits = true) ∧
        (chunk.ends = true → written.toList.getLast?.any (· != '(') = true) := fun whole =>
    ⟨fun _ => .inl whole.starts, fun _ => whole.ends⟩
  cases chunk with
  | token lexeme =>
    cases lexeme with
    | keyword word =>
      cases lowered
      exact both (by cases word <;> exact ⟨by decide, by decide⟩)
    | symbol mark =>
      cases mark with
      | leftParen =>
        cases lowered
        exact ⟨fun _ => .inl (by decide), (by simp [ends, opens])⟩
      | rightParen =>
        cases lowered
        exact ⟨(by simp [begins]), fun _ => by decide⟩
      | _ =>
        cases lowered
        exact both ⟨by decide, by decide⟩
    | ident name =>
      cases lowered
      exact both (sealed_word (within formed).1)
    | qualified parts =>
      cases lowered
      refine both (sealed_joined "." (Term.strip_row_filled scope parts ?_) fun part member => ?_)
      · rintro rfl
        exact absurd (within formed).1 (by decide)
      · exact sealed_word ((within formed).2 part (Term.strip_row_sub scope parts part member))
    | tableWildcard table =>
      cases lowered
      exact both ⟨starts_append (Term.table_wildcard_starts (within formed)) _, ends_append _ (by decide)⟩
    | param name =>
      cases lowered
      exact both ⟨starts_append (by decide) _, ends_append _ (sealed_word (within formed)).ends⟩
    | str value =>
      cases lowered
      exact both (sealed_literal value)
    | int digits =>
      cases lowered
      exact both (sealed_digits (within formed))
    | decimal digits =>
      cases lowered
      exact both (sealed_decimal (within formed))
  | call name empty =>
    cases lowered
    refine ⟨fun _ => .inl (starts_append (sealed_word (within formed).1).starts _), fun ending => ?_⟩
    cases empty with
    | true => exact ends_append _ (by decide)
    | false => cases ending
  | numeric name =>
    cases lowered
    exact ⟨fun _ => .inr ⟨rfl, rfl⟩, (by simp [ends, opens])⟩
  | blank | query => exact ⟨(by simp [begins]), (by simp [ends, opens])⟩
  | refusal => cases lowered

theorem print_starts (formed : term.WellFormed) {chunks : List Chunk} (laid : Laid term True chunks)
    (lowered : print (Chunk.text queryText) chunks scope parameters = .ok (text, met)) :
    text.toList.head?.any (· != ')') = true := by
  induction chunks generalizing parameters met text with
  | nil =>
    obtain ⟨_, missing, -⟩ := laid.first
    cases missing
  | cons chunk rest ih =>
    obtain ⟨_, found, beginning⟩ := laid.first
    cases found
    obtain ⟨written, _, begun, lowered⟩ := bind_ok lowered
    obtain ⟨others, ended, rfl⟩ := map_ok lowered
    obtain starts | ⟨rfl, awaiting⟩ := (chunk_sealed formed (laid.within chunk (.head _)) begun).1 beginning
    · exact starts_append starts others
    · rw [String.empty_append]
      exact ih (linked_tail laid.toLinked (laid_ends laid) awaiting) ended

theorem print_ends (formed : term.WellFormed) {chunks : List Chunk} (laid : Laid term True chunks)
    (lowered : print (Chunk.text queryText) chunks scope parameters = .ok (text, met)) :
    text.toList.getLast?.any (· != '(') = true := by
  obtain ⟨last, found, ending⟩ := laid.last
  obtain ⟨front, rfl⟩ := List.getLast?_eq_some_iff.1 found
  rw [print_append, print_single] at lowered
  obtain ⟨before, _, -, lowered⟩ := bind_ok lowered
  obtain ⟨written, ended, rfl⟩ := map_ok lowered
  exact ends_append before ((chunk_sealed formed (laid.within last (List.mem_concat_self)) ended).2 ending)

end Chunk

namespace Term

open Text

theorem text_sealed (queryText : QueryText) (term : Term) (formed : term.WellFormed) {scope : Scope}
    {parameters met : List Parameter} {text : String}
    (lowered : term.text queryText scope parameters = .ok (text, met)) : Sealed text := by
  have laid := chunks_spaced term
  rw [text_chunks] at lowered
  exact ⟨Chunk.print_starts formed laid lowered, Chunk.print_ends formed laid lowered⟩

end Term

end PipeSql

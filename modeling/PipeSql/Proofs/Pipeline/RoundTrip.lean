import PipeSql.Proofs.Pipeline.Expression
import PipeSql.Proofs.Script.ReadBack

set_option autoImplicit false

namespace PipeSql

namespace Lowering

variable {α β : Type} {scope : Scope}

-- Lowering succeeds whatever parameters were met before.
def Succeeds (scope : Scope) (lowering : Lowering α) (property : α → Prop) : Prop :=
  ∀ parameters, ∃ value met, lowering scope parameters = .ok (value, met) ∧ property value

variable {property : α → Prop} {outcome : β → Prop}

theorem succeeds_pure {value : α} (holds : property value) : Succeeds scope (pure value) property :=
  fun parameters => ⟨value, parameters, rfl, holds⟩

theorem succeeds_bind {first : Lowering α} {next : α → Lowering β} (begun : Succeeds scope first property)
    (ended : ∀ value, property value → Succeeds scope (next value) outcome) :
    Succeeds scope (first >>= next) outcome := by
  intro parameters
  obtain ⟨value, between, found, holds⟩ := begun parameters
  obtain ⟨result, met, finished, outcomeHolds⟩ := ended value holds between
  refine ⟨result, met, ?_, outcomeHolds⟩
  change (first scope parameters).bind (fun pair => next pair.1 scope pair.2) = .ok (result, met)
  rw [found]
  exact finished

theorem succeeds_map {first : Lowering α} {next : α → β} (begun : Succeeds scope first property)
    (ended : ∀ value, property value → outcome (next value)) : Succeeds scope (do return next (← first)) outcome :=
  succeeds_bind begun fun value holds => succeeds_pure (ended value holds)

theorem succeeds_mono {lowering : Lowering α} {weaker : α → Prop} (begun : Succeeds scope lowering property)
    (implied : ∀ value, property value → weaker value) : Succeeds scope lowering weaker := by
  intro parameters
  obtain ⟨value, met, found, holds⟩ := begun parameters
  exact ⟨value, met, found, implied value holds⟩

theorem succeeds_declare (name sqlType : String) : Succeeds scope (declare name sqlType) fun _ => True :=
  fun _ => ⟨(), _, rfl, trivial⟩

end Lowering

theorem Token.prints_symbol (mark : Symbol) : Prints (Token.symbol mark).sql [.symbol mark] := by
  intro rest more delimited behind
  cases rest with
  | nil => cases mark <;> exact .token _ _ [] _ rfl rfl behind
  | cons c rest =>
    have delimiter := delimited c rfl
    simp only [isDelimiter, Bool.or_eq_true, beq_iff_eq] at delimiter
    rcases delimiter with ((rfl | rfl) | rfl) | rfl <;> cases mark <;> exact .token _ _ _ _ rfl rfl behind

namespace Chunk

open Lowering

def tokens : Chunk → List Token
  | .token lexeme => [lexeme]
  | .call name empty =>
    .ident name :: .symbol .leftParen :: if empty then [.symbol .rightParen] else []
  | _ => []

theorem words_tokens (keywords : List Keyword) : (words keywords).flatMap tokens = keywords.map .keyword := by
  induction keywords with
  | nil => rfl
  | cons word rest ih => exact congrArg (Token.keyword word :: ·) ih

theorem phrase_tokens (keywords : List Keyword) : (phrase keywords).flatMap tokens = keywords.map .keyword :=
  words_tokens keywords

theorem enclosed_tokens (inner : List Chunk) :
    (enclosed inner).flatMap tokens = Token.enclosed (inner.flatMap tokens) := by
  simp [enclosed, Token.enclosed, tokens]

theorem parenthesized_tokens (needed : Bool) (inner : List Chunk) :
    (parenthesized needed inner).flatMap tokens =
      if needed then Token.enclosed (inner.flatMap tokens) else inner.flatMap tokens := by
  cases needed with
  | true => exact enclosed_tokens inner
  | false => rfl

theorem commaed_tokens (entries : List (List Chunk)) :
    (separated [comma, .blank] entries).flatMap tokens = Token.commaed (entries.map (List.flatMap tokens)) := by
  induction entries with
  | nil => rfl
  | cons first rest ih =>
    cases rest with
    | nil => simp [separated, Token.commaed]
    | cons second rest =>
      rw [List.map_cons, Token.commaed] at ih
      simp [separated, Token.commaed, tokens, ih]

theorem called_tokens (head : CallHead) (args : List (List Chunk)) :
    (called head args).flatMap tokens = head.tokens (args.map (List.flatMap tokens)) := by
  have distinct : (if head.distinct then words [.distinct] else []).flatMap tokens =
      if head.distinct then [.keyword .distinct] else [] := by
    cases head.distinct <;> rfl
  unfold called CallHead.tokens
  split
  · rename_i empty
    rw [Bool.and_eq_true, List.isEmpty_iff, Bool.not_eq_true'] at empty
    simp [empty, tokens, Token.enclosed, Token.commaed]
  · simp [tokens, Token.enclosed, distinct, commaed_tokens]

theorem window_tokens (partitionBy orderBy : List (List Chunk)) :
    (window partitionBy orderBy).flatMap tokens =
      Token.window (partitionBy.map (List.flatMap tokens)) (orderBy.map (List.flatMap tokens)) := by
  have part : ∀ (first : Keyword) (entry : List Chunk) (entries : List (List Chunk)),
      (words [first, .by] ++ separated [comma, .blank] (entry :: entries)).flatMap tokens =
        Token.windowPart first ((entry :: entries).map (List.flatMap tokens)) := by
    intro first entry entries
    rw [List.flatMap_append, words_tokens, commaed_tokens]
    rfl
  have inner : (separated [.blank] (windowPart .partition partitionBy ++ windowPart .order orderBy)).flatMap tokens =
      Token.windowPart .partition (partitionBy.map (List.flatMap tokens)) ++
        Token.windowPart .order (orderBy.map (List.flatMap tokens)) := by
    cases partitionBy with
    | nil =>
      cases orderBy with
      | nil => rfl
      | cons key keys => exact part .order key keys
    | cons entry entries =>
      cases orderBy with
      | nil => exact (part .partition entry entries).trans (List.append_nil _).symm
      | cons key keys =>
        rw [← part, ← part, ← List.flatMap_append]
        simp [windowPart, separated, tokens]
  rw [window, List.flatMap_append, phrase_tokens, enclosed_tokens, inner]
  rfl

-- The text is made of the lexemes of the tokens.
def Readable (scope : Scope) : Chunk → Prop
  | .blank | .numeric _ => True
  | .token (.qualified parts) => (Token.qualified parts).Sound ∧ scope.stripRow parts = parts
  | .token lexeme => lexeme.Sound
  | .call name _ => (Token.ident name).Sound
  | .query .. | .refusal .. => False

open Token

-- How the text of a chunk is read in front of others.
structure Lexes (chunk : Chunk) (text : String) : Prop where
  alone : Prints text chunk.tokens
  opened : chunk.opens = true → chunk.isMinus = false → ∀ {others : String} {more : List Token},
    Prints others more → Prints (text ++ others) (chunk.tokens ++ more)
  minus : chunk.isMinus = true → text = "-"
  closed : chunk.closes = true → ∀ others, Follows (text ++ others)

variable {queryText : QueryText} {scope : Scope} {chunk : Chunk} {chunks : List Chunk} {text others : String}

theorem lexes_alone (prints : Prints text chunk.tokens) (closed : chunk.opens = false) (other : chunk.closes = false) :
    Lexes chunk text where
  alone := prints
  opened opening := by
    rw [closed] at opening
    cases opening
  minus single := by
    rw [minus_opens single] at closed
    cases closed
  closed closing := by
    rw [other] at closing
    cases closing

theorem lexes_token {lexeme : Token} (readable : (Chunk.token lexeme).Readable scope) :
    Succeeds scope (Chunk.text queryText (.token lexeme)) (Lexes (.token lexeme)) := by
  cases lexeme with
  | keyword word => exact succeeds_pure (lexes_alone (prints_keyword word) rfl rfl)
  | ident name => exact succeeds_pure (lexes_alone (prints_ident readable) rfl rfl)
  | qualified parts =>
    intro parameters
    refine ⟨Text.joinWith "." (scope.stripRow parts), parameters, rfl, lexes_alone ?_ rfl rfl⟩
    rw [readable.2]
    exact prints_qualified readable.1
  | tableWildcard table => exact succeeds_pure (lexes_alone (prints_table readable) rfl rfl)
  | param name =>
    exact succeeds_bind (succeeds_declare name _) fun _ _ => succeeds_pure (lexes_alone (prints_param readable) rfl rfl)
  | str value => exact succeeds_pure (lexes_alone (prints_literal value) rfl rfl)
  | int digits => exact succeeds_pure (lexes_alone (prints_int readable) rfl rfl)
  | decimal digits => exact succeeds_pure (lexes_alone (prints_decimal readable) rfl rfl)
  | symbol mark =>
    have alone := prints_symbol mark
    cases mark with
    | leftParen =>
      refine succeeds_pure ⟨alone, fun _ _ => prints_opening, (by simp [isMinus]), (by simp [closes])⟩
    | rightParen =>
      exact succeeds_pure ⟨alone, (by simp [opens]), (by simp [isMinus]), fun _ => follows_delimiter (by decide)⟩
    | comma =>
      exact succeeds_pure ⟨alone, (by simp [opens]), (by simp [isMinus]), fun _ => follows_delimiter (by decide)⟩
    | minus => exact succeeds_pure ⟨alone, (by simp [isMinus]), fun _ => rfl, (by simp [closes])⟩
    | _ => exact succeeds_pure (lexes_alone alone rfl rfl)

theorem lexes_chunk (readable : chunk.Readable scope) :
    Succeeds scope (chunk.text queryText) (Lexes chunk) := by
  cases chunk with
  | blank =>
    exact succeeds_pure ⟨prints_space prints_empty, fun _ _ => prints_space, (by simp [isMinus]),
      fun _ => follows_delimiter (by decide)⟩
  | token lexeme => exact lexes_token readable
  | call name empty =>
    have opened : ∀ {others : String} {more : List Token}, Prints others more →
        Prints (name ++ "(" ++ others) (.ident name :: .symbol .leftParen :: more) := by
      intro others more prints
      rw [String.append_assoc]
      exact prints_append (prints_ident readable) (follows_delimiter (by decide) others) (prints_opening prints)
    cases empty with
    | true =>
      have alone := opened (prints_symbol .rightParen)
      rw [String.append_assoc, (by decide : "(" ++ (Token.symbol .rightParen).sql = "()")] at alone
      exact succeeds_pure (lexes_alone alone rfl rfl)
    | false =>
      have alone := opened prints_empty
      rw [String.append_empty] at alone
      exact succeeds_pure ⟨alone, fun _ _ => opened, (by simp [isMinus]), (by simp [closes])⟩
  | numeric name =>
    refine succeeds_bind (succeeds_declare name _) fun _ _ => succeeds_pure ?_
    refine ⟨prints_empty, fun _ _ others more prints => ?_, (by simp [isMinus]), (by simp [closes])⟩
    rw [String.empty_append]
    exact prints
  | query | refusal => cases readable

-- A term behind a minus begins with a token of its own.
theorem readable_head (readable : chunk.Readable scope) (unclosed : chunk.closes = false) (other : chunk.dashed = false) :
    ∃ first rest, chunk.tokens = first :: rest ∧ first ≠ .symbol .minus := by
  cases chunk with
  | token lexeme =>
    refine ⟨lexeme, [], rfl, ?_⟩
    rintro rfl
    cases other
  | call name empty => exact ⟨_, _, rfl, by simp⟩
  | blank => cases unclosed
  | numeric => cases other
  | query | refusal => cases readable

structure Printed (chunks : List Chunk) (text : String) : Prop where
  prints : Prints text (chunks.flatMap tokens)
  follows : (∀ chunk ∈ chunks.head?, chunk.closes = true) → Follows text

theorem printed_cons (beside : ∀ next ∈ chunks.head?, Beside False chunk next)
    (readable : ∀ next ∈ chunks.head?, next.Readable scope) (lexes : Lexes chunk text) (printed : Printed chunks others) :
    Printed (chunk :: chunks) (text ++ others) where
  prints := by
    rw [List.flatMap_cons]
    by_cases closing : ∀ next ∈ chunks.head?, next.closes = true
    · exact prints_append lexes.alone (printed.follows closing) printed.prints
    · obtain ⟨next, found, unclosed⟩ : ∃ next ∈ chunks.head?, next.closes = false := by
        simpa using closing
      have opening := (beside next found).apart.resolve_right (by simp [unclosed])
      cases single : chunk.isMinus with
      | false => exact lexes.opened opening single printed.prints
      | true =>
        -- Two dashes would begin a comment, but no dash stands behind a dash.
        have other : next.dashed = false := Bool.eq_false_iff.2 fun dashed => (beside next found).dashes single dashed
        obtain ⟨first, rest, spelled, mark⟩ := readable_head (readable next found) unclosed other
        obtain ⟨behind, rfl⟩ := List.head?_eq_some_iff.1 found
        have whole := printed.prints
        rw [List.flatMap_cons, spelled] at whole
        have minus : chunk.tokens = [.symbol .minus] := by
          unfold isMinus at single
          split at single
          · rfl
          · cases single
        rw [lexes.minus single, minus, List.flatMap_cons, spelled]
        exact prints_minus whole (List.cons_ne_nil _ _) (by simpa using mark)
  follows closing := lexes.closed (closing chunk rfl) others

theorem print_prints (chain : chunks.IsChain (Beside False)) (readable : ∀ chunk ∈ chunks, chunk.Readable scope) :
    Succeeds scope (print (Chunk.text queryText) chunks) (Printed chunks) := by
  induction chunks with
  | nil => exact succeeds_pure ⟨prints_empty, fun _ => follows_empty⟩
  | cons chunk rest ih =>
    obtain ⟨beside, chain⟩ := List.isChain_cons.1 chain
    obtain ⟨first, others⟩ := List.forall_mem_cons.1 readable
    refine succeeds_bind (lexes_chunk first) fun text lexes => ?_
    have next := fun chunk found => others chunk (List.mem_of_mem_head? found)
    exact succeeds_map (ih chain others) fun _ printed => printed_cons beside next lexes printed

end Chunk

namespace Term

open Lowering Token Chunk

variable {queryText : QueryText} {scope : Scope}

theorem list_chunk_tokens {terms : List Term} (each : ∀ term ∈ terms, term.chunks.flatMap Chunk.tokens = term.tokens) :
    (listChunks terms).map (List.flatMap Chunk.tokens) = listTokens terms := by
  rw [list_chunks, list_tokens, List.map_map]
  exact List.map_congr_left each

theorem option_chunk_tokens (introduction : List Chunk) {given : Option Term}
    (each : ∀ term, given = some term → term.chunks.flatMap Chunk.tokens = term.tokens) :
    (optionChunks introduction given).flatMap Chunk.tokens = optionTokens (introduction.flatMap Chunk.tokens) given := by
  cases given with
  | none => rfl
  | some term => rw [optionChunks, optionTokens, List.flatMap_append, each term rfl]

theorem branch_chunk_tokens {branches : List (Term × Term)}
    (each : ∀ branch ∈ branches, branch.1.chunks.flatMap Chunk.tokens = branch.1.tokens ∧
      branch.2.chunks.flatMap Chunk.tokens = branch.2.tokens) :
    (branchChunks branches).flatMap Chunk.tokens = branchTokens branches := by
  induction branches with
  | nil => rfl
  | cons branch rest ih =>
    obtain ⟨condition, value⟩ := branch
    obtain ⟨first, second⟩ := each (condition, value) (.head _)
    simp [branchChunks, branchTokens, phrase_tokens, first, second, ih fun other member => each other (.tail _ member)]

theorem compared_tokens (left right : Term) : (compared left right).flatMap Chunk.tokens = [] := by
  have each : ∀ (number : Bool) (term : Term), (beside number term).flatMap Chunk.tokens = [] := by
    intro number term
    cases term with
    | param span name => cases number <;> rfl
    | _ => rfl
  rw [compared, List.flatMap_append, each, each, List.append_nil]

theorem negated_bare {span : Span} {operand : Term} (formed : (Term.unary span .negate operand).WellFormed) :
    operand.isBinary = false := by
  have tight := formed.1
  cases operand with
  | binary place op left right =>
    rw [level] at tight
    cases op <;> exact absurd tight (by decide)
  | _ => rfl

theorem chunk_tokens (term : Term) (formed : term.WellFormed) (scalar : term.isScalar = true) :
    term.chunks.flatMap Chunk.tokens = term.tokens := by
  induction term using parts_induction with
  | step term ih =>
    have each : ∀ part ∈ term.parts, part.chunks.flatMap Chunk.tokens = part.tokens := fun part member =>
      ih part member (part_well_formed term part formed member) (scalar_part scalar member)
    have plain := ((is_scalar_iff term).1 scalar).1
    cases term with
    | ident | qualified | param | literal => rfl
    | wildcard span table => cases table <;> rfl
    | call span head args =>
      rw [parts] at each
      rw [chunks, tokens, called_tokens, list_chunk_tokens each]
    | windowed span head args partitionBy orderBy =>
      obtain ⟨ofArgs, ofPartition, ofOrder⟩ := windowed_parts each
      rw [chunks, tokens, List.flatMap_append, called_tokens, window_tokens, list_chunk_tokens ofArgs,
        list_chunk_tokens ofPartition, list_chunk_tokens ofOrder]
    | cases span operand branches otherwise =>
      obtain ⟨ofOperand, ofBranches, ofOtherwise⟩ := cases_parts each
      rw [chunks, tokens, List.flatMap_cons, List.flatMap_append, List.flatMap_append, List.flatMap_append,
        option_chunk_tokens [.blank] ofOperand, branch_chunk_tokens ofBranches,
        option_chunk_tokens (phrase [.else]) ofOtherwise]
      rfl
    | binary span op left right =>
      obtain ⟨first, second⟩ := operands_bare formed
      have declared : (if op.isComparison then compared left right else []).flatMap Chunk.tokens = [] := by
        cases op.isComparison with
        | true => exact compared_tokens left right
        | false => rfl
      simp [chunks, tokens, declared, first, second, Chunk.parenthesized, each left (.head _),
        each right (.tail _ (.head _)), Chunk.tokens]
    | unary span op operand =>
      have inner := each operand (.head _)
      cases op with
      | negate => simp [chunks, tokens, negated_bare formed, Chunk.parenthesized, inner, Chunk.tokens]
      | not =>
        rw [chunks, tokens, List.flatMap_append, words_tokens, parenthesized_tokens, inner]
        rfl
    | isNull span operand negated =>
      cases negated <;>
        simp [chunks, tokens, phrase_tokens, each operand (.head _), Chunk.negation, Token.negation, Chunk.tokens]
    | inList span operand items negated =>
      have lone : lonePipe items = false := by
        unfold lonePipe
        split
        · cases ((is_scalar_iff _).1 (scalar_part scalar (.tail _ (.head _)))).1
        · rfl
      have listed := list_chunk_tokens fun item member => each item (.tail _ member)
      cases negated <;>
        simp [chunks, tokens, phrase_tokens, each operand (.head _), Chunk.negation, Token.negation, entries, lone,
          Chunk.parenthesized, enclosed_tokens, commaed_tokens, listed]
    | like span operand pattern negated =>
      cases negated <;>
        simp [chunks, tokens, phrase_tokens, each operand (.head _), each pattern (.tail _ (.head _)), Chunk.negation,
          Token.negation]
    | paren span inner => rw [chunks, tokens, enclosed_tokens, each inner (.head _)]
    | aliased span inner label =>
      simp [chunks, tokens, phrase_tokens, each inner (.head _), Chunk.tokens]
    | ordered span inner direction => simp [chunks, tokens, each inner (.head _), Chunk.tokens]
    | lambda | «exists» | pipe | named => cases plain

theorem strip_row_none (plain : scope.rows = []) (parts : List String) : scope.stripRow parts = parts := by
  unfold Scope.stripRow
  rw [plain]
  split <;> rfl

theorem scalar_readable (plain : scope.rows = []) {term : Term} (formed : term.WellFormed)
    (scalar : term.isScalar = true) {chunk : Chunk} (within : chunk.Within term) : chunk.Readable scope := by
  have free : ∀ {holder : Term}, holder.Within term → holder.isPlain = true := fun {holder} inner =>
    ((is_scalar_iff holder).1 (within_inherits scalar_part inner scalar)).1
  cases chunk with
  | blank | numeric => trivial
  | token lexeme =>
    cases lexeme with
    | qualified parts => exact ⟨within formed, strip_row_none plain parts⟩
    | _ => exact within formed
  | call => exact within formed
  | query source stages =>
    obtain ⟨holder, inner, query, -⟩ := within
    have whole := free inner
    cases holder with
    | «exists» | pipe => cases whole
    | _ => cases query
  | refusal misuse span =>
    obtain ⟨holder, inner, stray⟩ := within
    rw [free inner] at stray
    cases stray

theorem text_prints (plain : scope.rows = []) (term : Term) (formed : term.WellFormed) (scalar : term.isScalar = true) :
    Succeeds scope (term.text queryText) fun text => Prints text term.tokens := by
  have dashes : ∀ outer inner operand, ¬(Term.unary outer .negate (.unary inner .negate operand)).Within term := by
    intro outer inner operand within
    have single := ((is_scalar_iff _).1 (within_inherits scalar_part within scalar)).1
    cases single
  have laid := chunks_laid term (operand_undashed formed dashes)
  have readable := fun chunk member => scalar_readable plain formed scalar (laid.within chunk member)
  rw [text_chunks, ← chunk_tokens term formed scalar]
  exact succeeds_mono (print_prints laid.chain readable) fun _ printed => printed.prints

end Term

/-- A scalar term that can stand alone has a text, which is read as a script of that term alone. -/
theorem scalar_text_reads_back (source : String) (screened : Bool) (script : Script) (term : Term)
    (queryText : QueryText) (scope : Lowering.Scope) (parameters : List Parameter)
    (accepted : Script.read source screened = .ok script) (contained : script.Contains term) (whole : 1 ≤ term.level)
    (scalar : term.isScalar = true) (plain : scope.rows = []) :
    ∃ text met found, term.text queryText scope parameters = .ok (text, met) ∧
      Script.read text false = .ok ⟨.query ⟨found, []⟩, []⟩ ∧ term.Recovered found := by
  have formed := Script.contains_well_formed script term (Script.read_well_formed source screened script accepted)
    contained
  obtain ⟨text, met, lowered, prints⟩ := Term.text_prints plain term formed scalar parameters
  obtain ⟨lexemes, tokens, same⟩ := Token.prints_read prints
  obtain ⟨found, parsed, recovered⟩ := Script.parse_tokens formed scalar whole same (Text.width text.toList)
  exact ⟨text, met, found, lowered, Script.read_of_stages tokens parsed, recovered⟩

theorem inverted_comparison_reads_back :
    ∃ script term, Script.read "t|>filter(not a=-1 and substr(distinct b) in (1.5,'it''s'))" false = .ok script ∧
      script.Contains term ∧ 1 ≤ term.level ∧ term.isScalar = true ∧
      term.text (Pipe.textWithin 0) ⟨.sqlite, [], []⟩ [] =
        .ok ("NOT (a = -1) AND SUBSTRING(DISTINCT b) IN (1.5, 'it''s')", []) ∧
      ∃ text met found, term.text (Pipe.textWithin 0) ⟨.sqlite, [], []⟩ [] = .ok (text, met) ∧
        Script.read text false = .ok ⟨.query ⟨found, []⟩, []⟩ ∧ term.Recovered found := by
  have tokens : tokenize "t|>filter(not a=-1 and substr(distinct b) in (1.5,'it''s'))" = .ok [⟨.ident "t", ⟨0, 1⟩⟩,
      ⟨.symbol .pipe, ⟨1, 3⟩⟩, ⟨.ident "filter", ⟨3, 9⟩⟩, ⟨.symbol .leftParen, ⟨9, 10⟩⟩, ⟨.keyword .not, ⟨10, 13⟩⟩,
      ⟨.ident "a", ⟨14, 15⟩⟩, ⟨.symbol .eq, ⟨15, 16⟩⟩, ⟨.symbol .minus, ⟨16, 17⟩⟩, ⟨.int "1", ⟨17, 18⟩⟩,
      ⟨.keyword .and, ⟨19, 22⟩⟩, ⟨.ident "substr", ⟨23, 29⟩⟩, ⟨.symbol .leftParen, ⟨29, 30⟩⟩,
      ⟨.keyword .distinct, ⟨30, 38⟩⟩, ⟨.ident "b", ⟨39, 40⟩⟩, ⟨.symbol .rightParen, ⟨40, 41⟩⟩, ⟨.keyword .in, ⟨42, 44⟩⟩,
      ⟨.symbol .leftParen, ⟨45, 46⟩⟩, ⟨.decimal "1.5", ⟨46, 49⟩⟩, ⟨.symbol .comma, ⟨49, 50⟩⟩, ⟨.str "it's", ⟨50, 57⟩⟩,
      ⟨.symbol .rightParen, ⟨57, 58⟩⟩, ⟨.symbol .rightParen, ⟨58, 59⟩⟩] := by decide +kernel
  have accepted : Script.read "t|>filter(not a=-1 and substr(distinct b) in (1.5,'it''s'))" false = .ok
      ⟨.query ⟨.ident ⟨0, 1⟩ "t", [.call ⟨3, 59⟩ ⟨"filter", ⟨3, 9⟩, false⟩ [.binary ⟨10, 58⟩ .and
        (.unary ⟨10, 18⟩ .not (.binary ⟨14, 18⟩ .eq (.ident ⟨14, 15⟩ "a")
          (.unary ⟨16, 18⟩ .negate (.literal ⟨17, 18⟩ (.int "1")))))
        (.inList ⟨23, 58⟩ (.call ⟨23, 41⟩ ⟨"substr", ⟨23, 29⟩, true⟩ [.ident ⟨39, 40⟩ "b"])
          [.literal ⟨46, 49⟩ (.decimal "1.5"), .literal ⟨50, 57⟩ (.str "it's")] false)]]⟩, []⟩ :=
    Script.read_of_stages tokens (by set_option maxRecDepth 4000 in rfl)
  refine ⟨_, _, accepted, ⟨_, .head _, _, .tail _ (.head _), .deeper _ _ _ (.head _) (.self _)⟩, by decide,
    by decide +kernel, by decide +kernel, ?_⟩
  exact scalar_text_reads_back _ _ _ _ _ _ _ accepted
    ⟨_, .head _, _, .tail _ (.head _), .deeper _ _ _ (.head _) (.self _)⟩ (by decide) (by decide +kernel) rfl

end PipeSql

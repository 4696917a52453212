import PipeSql.Proofs.Dialect.Spells
import PipeSql.Proofs.Pipeline.Conditions

set_option autoImplicit false

namespace PipeSql

theorem Text.plain_dotted {parts : List String} (words : ∀ part ∈ parts, isWord part.toList = true) :
    Plain (joinWith "." parts) := by
  refine plain_path fun c member => ?_
  rcases joined_mem "." parts c member with dot | ⟨part, listed, member⟩
  · exact .inl (List.mem_singleton.1 dot)
  · exact .inr (Token.word_parts _ (words part listed) c member)

namespace Term

-- No query stands in the term.
def isQueryFree (term : Term) : Bool :=
  !term.isQuery && term.parts.attach.all fun part => part.1.isQueryFree
termination_by term.height
decreasing_by exact part_height term part.1 part.2

theorem is_query_free_iff (term : Term) :
    term.isQueryFree = true ↔ term.isQuery = false ∧ ∀ part ∈ term.parts, part.isQueryFree = true := by
  rw [isQueryFree]
  simp

theorem free_part {term part : Term} (free : term.isQueryFree = true) (member : part ∈ term.parts) :
    part.isQueryFree = true :=
  ((is_query_free_iff term).1 free).2 part member

end Term

namespace Chunk

open Lowering Text Dialect

variable {dialect : Dialect} {queryText : QueryText} {scope : Scope} {chunk : Chunk} {chunks : List Chunk}
  {text other next after : String}

-- How a dialect spells the text of a chunk in front of others.
structure Respelled (dialect : Dialect) (chunk : Chunk) (other text : String) : Prop where
  alone : chunk.opens = false → dialect.Spells text other
  opened : chunk.opens = true → ∀ {next after : String}, dialect.Spells next after →
    (chunk.awaits = true → next.toList.head?.any (· != ')') = true) → dialect.Spells (text ++ next) (other ++ after)
  closed : chunk.closes = true → ∀ next : String, Stops (text ++ next).toList

theorem respelled_alone (spells : dialect.Spells text other) (shut : chunk.opens = false) (unclosed : chunk.closes = false) :
    Respelled dialect chunk other text where
  alone _ := spells
  opened opening := by
    rw [shut] at opening
    cases opening
  closed closing := by
    rw [unclosed] at closing
    cases closing

-- A separating character changes nothing.
theorem respelled_behind {c : Char} (single : text.toList = [c]) (separates : Piece.Separates c) (dot : c ≠ '.')
    (opening : chunk.opens = true) (stops : chunk.closes = true → ∀ rest, Stops (c :: rest)) :
    Respelled dialect chunk text text where
  alone shut := by
    rw [opening] at shut
    cases shut
  opened _ _ _ spells _ := spells_behind single separates dot spells
  closed closing next := by
    rw [String.toList_append, single]
    exact stops closing _

theorem respelled_token {lexeme : Token} (sound : lexeme.Sound) :
    Matched scope (Respelled dialect (.token lexeme)) (Chunk.spelled dialect.spelling queryText (.token lexeme))
      (Chunk.text queryText (.token lexeme)) := by
  cases lexeme with
  | keyword word =>
    have plain : Text.Plain word.spelling := by cases word <;> exact ⟨by decide, by decide, by decide⟩
    exact matched_pure (respelled_alone (spells_plain dialect plain) rfl rfl)
  | ident name => exact matched_pure (respelled_alone (spells_plain dialect (plain_word sound.1)) rfl rfl)
  | qualified parts =>
    refine matched_map (matched_self read) ?_
    rintro scope _ rfl _
    have words := fun part member => sound.2 part (Term.strip_row_sub scope parts part member)
    exact respelled_alone (spells_plain dialect (plain_dotted words)) rfl rfl
  | tableWildcard table =>
    have plain := plain_append (plain_table sound) (⟨by decide, by decide, by decide⟩ : Text.Plain ".*")
    exact matched_pure (respelled_alone (spells_plain dialect plain) rfl rfl)
  | param name =>
    have marked : dialect.Spells ("@" ++ name) ("@" ++ name) :=
      spells_behind rfl ⟨by decide, by decide, by decide, by decide⟩ (by decide) (spells_plain dialect (plain_word sound))
    exact matched_bind (matched_self _) fun _ _ _ _ => matched_pure (respelled_alone marked rfl rfl)
  | str value => exact matched_pure (respelled_alone (spells_literal dialect value) rfl rfl)
  | int digits => exact matched_pure (respelled_alone (spells_plain dialect (plain_digits sound)) rfl rfl)
  | decimal digits => exact matched_pure (respelled_alone (spells_plain dialect (plain_decimal sound)) rfl rfl)
  | symbol mark =>
    cases mark with
    | concat => exact matched_pure (respelled_alone (spells_concat dialect) rfl rfl)
    | pipe => exact matched_pure (respelled_alone (spells_pipe dialect) rfl rfl)
    | leftParen | minus =>
      refine matched_pure (respelled_behind rfl ⟨by decide, by decide, by decide, by decide⟩ (by decide) rfl ?_)
      simp [closes]
    | rightParen =>
      refine matched_pure ⟨fun _ => spells_plain dialect ⟨by decide, by decide, by decide⟩, (by simp [opens]), fun _ _ => ?_⟩
      rw [String.toList_append]
      exact stops_closing _
    | comma =>
      refine matched_pure ⟨fun _ => spells_plain dialect ⟨by decide, by decide, by decide⟩, (by simp [opens]), fun _ _ => ?_⟩
      rw [String.toList_append]
      exact stops_comma _
    | _ => exact matched_pure (respelled_alone (spells_plain dialect ⟨by decide, by decide, by decide⟩) rfl rfl)

theorem respelled_call {name : String} (sound : (Token.ident name).Sound) (empty : Bool) :
    Matched scope (Respelled dialect (.call name empty)) (Chunk.spelled dialect.spelling queryText (.call name empty))
      (Chunk.text queryText (.call name empty)) := by
  rw [Chunk.spelled]
  cases renamed : dialect.spelling.rename (asciiUpper name) with
  | none =>
    cases empty with
    | true =>
      have paired : dialect.Spells ")" ")" := spells_plain dialect ⟨by decide, by decide, by decide⟩
      have alone := spells_kept_call sound.1 renamed paired
      rw [String.append_assoc] at alone
      exact matched_pure (respelled_alone alone rfl rfl)
    | false =>
      exact matched_pure ⟨(by simp [opens]), fun _ _ _ spells _ => spells_kept_call sound.1 renamed spells,
        (by simp [closes])⟩
  | some other =>
    cases empty with
    | true => exact matched_pure (respelled_alone (spells_empty_call sound.1 renamed) rfl rfl)
    | false =>
      exact matched_pure ⟨(by simp [opens]),
        fun _ _ _ spells filled => spells_renamed_call sound.1 renamed spells (filled rfl),
        (by simp [closes])⟩

theorem respelled_chunk {term : Term} (formed : term.WellFormed) (free : term.isQueryFree = true)
    (within : chunk.Within term) :
    Matched scope (Respelled dialect chunk) (chunk.spelled dialect.spelling queryText) (chunk.text queryText) := by
  cases chunk with
  | blank => exact matched_pure (respelled_behind rfl Piece.space_separates (by decide) rfl fun _ => stops_space)
  | token lexeme => exact respelled_token (within formed)
  | call name empty => exact respelled_call (within formed) empty
  | numeric name =>
    refine matched_bind (matched_self _) fun _ _ _ _ =>
      matched_pure ⟨(by simp [opens]), fun _ _ _ spells _ => ?_, (by simp [closes])⟩
    rw [String.empty_append, String.empty_append]
    exact spells
  | query source stages =>
    obtain ⟨holder, inner, query, -⟩ := within
    have whole := ((Term.is_query_free_iff holder).1 (Term.within_inherits Term.free_part inner free)).1
    rw [query] at whole
    cases whole
  | refusal => exact fun _ => .error _

structure Respells (dialect : Dialect) (chunks : List Chunk) (other text : String) : Prop where
  spells : dialect.Spells text other
  stops : (∀ chunk ∈ chunks.head?, chunk.closes = true) → Stops text.toList

theorem respells_cons (beside : ∀ following ∈ chunks.head?, Beside True chunk following)
    (respelled : Respelled dialect chunk other text) (respells : Respells dialect chunks after next)
    (filled : chunk.awaits = true → next.toList.head?.any (· != ')') = true) :
    Respells dialect (chunk :: chunks) (other ++ after) (text ++ next) where
  spells := by
    cases opening : chunk.opens with
    | true => exact respelled.opened opening respells.spells filled
    | false =>
      refine spells_append (respelled.alone opening) ⟨respells.spells, respells.stops fun following found => ?_⟩
      exact (beside following found).apart.resolve_left (by simp [opening])
  stops closing := respelled.closed (closing chunk rfl) next

theorem print_spelled {term : Term} (formed : term.WellFormed) (free : term.isQueryFree = true)
    (linked : Linked term True chunks) (ended : ∀ last ∈ chunks.getLast?, last.ends = true) :
    Matched scope (Respells dialect chunks) (print (Chunk.spelled dialect.spelling queryText) chunks)
      (print (Chunk.text queryText) chunks) := by
  induction chunks with
  | nil => exact matched_pure ⟨fun _ _ => rfl, fun _ => stops_nil⟩
  | cons chunk rest ih =>
    obtain ⟨beside, chain⟩ := List.isChain_cons.1 linked.chain
    obtain ⟨within, others⟩ := List.forall_mem_cons.1 linked.within
    have trailing : ∀ last ∈ rest.getLast?, last.ends = true := fun last found => ended last (by
      rw [List.getLast?_cons, found]
      rfl)
    refine matched_bind (respelled_chunk formed free within) fun other text respelled _ => ?_
    refine matched_map (ih ⟨others, chain⟩ trailing) fun after next respells yields => ?_
    refine respells_cons beside respelled respells fun awaiting => ?_
    -- arguments follow, so the text behind the parenthesis does not close it
    obtain ⟨_, _, lowered⟩ := yields
    exact print_starts formed (linked_tail linked ended awaiting) lowered

end Chunk

namespace Term

theorem text_spelled (dialect : Dialect) (queryText : QueryText) (scope : Lowering.Scope) (term : Term)
    (formed : term.WellFormed) (free : term.isQueryFree = true) :
    Lowering.Matched scope (Chunk.Respells dialect term.chunks) (term.spelled dialect.spelling queryText)
      (term.text queryText) := by
  have laid := chunks_spaced term
  rw [spelled_chunks, text_chunks]
  exact Chunk.print_spelled formed free laid.toLinked (Chunk.laid_ends laid)

end Term

-- A lowering that fails does so in both ways, and the parameters that are met are the same.
theorem respelled_text_is_spelled (source : String) (screened : Bool) (script : Script) (term : Term) (dialect : Dialect)
    (queryText : QueryText) (scope : Lowering.Scope) (parameters : List Parameter)
    (accepted : Script.read source screened = .ok script) (contained : script.Contains term)
    (free : term.isQueryFree = true) :
    (do return dialect.respell (← term.text queryText) : Lowering String) scope parameters =
      term.spelled dialect.spelling queryText scope parameters := by
  have formed := Script.contains_well_formed script term (Script.read_well_formed source screened script accepted) contained
  have runs := Term.text_spelled dialect queryText scope term formed free
  have same := Lowering.matched_eq runs (fun _ _ respells => (Dialect.spells_respell respells.spells).symm) parameters
  rw [← same]
  exact congrFun (congrFun (bind_pure (term.spelled dialect.spelling queryText)) scope) parameters

theorem renamed_calls_are_spelled :
    ∃ script term, Script.read "t|>filter(now()||substr(r.b,1)='now()'||@p)" false = .ok script ∧ script.Contains term ∧
      term.isQueryFree = true ∧
      (∀ dialect : Dialect,
        (do return dialect.respell (← term.text (Pipe.textWithin 0)) : Lowering String) ⟨.sqlite, [], ["r"]⟩ [] =
          term.spelled dialect.spelling (Pipe.textWithin 0) ⟨.sqlite, [], ["r"]⟩ []) ∧
      term.spelled (Dialect.spelling .sqlite) (Pipe.textWithin 0) ⟨.sqlite, [], ["r"]⟩ [] =
        .ok ("CURRENT_TIMESTAMP || SUBSTR(b, 1) = 'now()' || @p", [⟨"p", "TEXT"⟩]) ∧
      term.spelled (Dialect.spelling .sqlserver) (Pipe.textWithin 0) ⟨.sqlite, [], ["r"]⟩ [] =
        .ok ("GETDATE() + SUBSTRING(b, 1) = 'now()' + @p", [⟨"p", "TEXT"⟩]) := by
  have tokens : tokenize "t|>filter(now()||substr(r.b,1)='now()'||@p)" = .ok [⟨.ident "t", ⟨0, 1⟩⟩,
      ⟨.symbol .pipe, ⟨1, 3⟩⟩, ⟨.ident "filter", ⟨3, 9⟩⟩, ⟨.symbol .leftParen, ⟨9, 10⟩⟩, ⟨.ident "now", ⟨10, 13⟩⟩,
      ⟨.symbol .leftParen, ⟨13, 14⟩⟩, ⟨.symbol .rightParen, ⟨14, 15⟩⟩, ⟨.symbol .concat, ⟨15, 17⟩⟩,
      ⟨.ident "substr", ⟨17, 23⟩⟩, ⟨.symbol .leftParen, ⟨23, 24⟩⟩, ⟨.qualified ["r", "b"], ⟨24, 27⟩⟩,
      ⟨.symbol .comma, ⟨27, 28⟩⟩, ⟨.int "1", ⟨28, 29⟩⟩, ⟨.symbol .rightParen, ⟨29, 30⟩⟩, ⟨.symbol .eq, ⟨30, 31⟩⟩,
      ⟨.str "now()", ⟨31, 38⟩⟩, ⟨.symbol .concat, ⟨38, 40⟩⟩, ⟨.param "p", ⟨40, 42⟩⟩,
      ⟨.symbol .rightParen, ⟨42, 43⟩⟩] := by decide +kernel
  have accepted : Script.read "t|>filter(now()||substr(r.b,1)='now()'||@p)" false = .ok
      ⟨.query ⟨.ident ⟨0, 1⟩ "t", [.call ⟨3, 43⟩ ⟨"filter", ⟨3, 9⟩, false⟩ [.binary ⟨10, 42⟩ .eq
        (.binary ⟨10, 30⟩ .concat (.call ⟨10, 15⟩ ⟨"now", ⟨10, 13⟩, false⟩ [])
          (.call ⟨17, 30⟩ ⟨"substr", ⟨17, 23⟩, false⟩ [.qualified ⟨24, 27⟩ ["r", "b"], .literal ⟨28, 29⟩ (.int "1")]))
        (.binary ⟨31, 42⟩ .concat (.literal ⟨31, 38⟩ (.str "now()")) (.param ⟨40, 42⟩ "p"))]]⟩, []⟩ :=
    Script.read_of_stages tokens (by set_option maxRecDepth 4000 in rfl)
  refine ⟨_, _, accepted, ⟨_, .head _, _, .tail _ (.head _), .deeper _ _ _ (.head _) (.self _)⟩, by decide +kernel,
    fun dialect => ?_, by decide +kernel, by decide +kernel⟩
  exact respelled_text_is_spelled _ _ _ _ dialect _ _ _ accepted
    ⟨_, .head _, _, .tail _ (.head _), .deeper _ _ _ (.head _) (.self _)⟩ (by decide +kernel)

end PipeSql

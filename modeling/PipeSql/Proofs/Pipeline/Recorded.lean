import PipeSql.Proofs.Pipeline.Lowered
import PipeSql.Proofs.Pipeline.Sealed
import PipeSql.Proofs.Statement.Clean

set_option autoImplicit false

namespace PipeSql

open Text

section

variable {allowed : Allowance} {statement : Statement}

namespace Statement

theorem empty_permitted : Statement.Permitted allowed .empty := by
  constructor <;> simp [Statement.empty]

theorem with_base_permitted (permitted : Permitted allowed statement) {table : Table}
    (named : leads table.sql.toList = true) : Permitted allowed (statement.withBase table) :=
  { permitted with
    tables := by
      rintro other (_ | ⟨_, member⟩)
      · exact named
      · exact permitted.tables other (List.mem_of_mem_tail member) }

theorem add_join_permitted (permitted : Permitted allowed statement) {table : Table} {join : Join}
    (named : leads table.sql.toList = true) (joined : join.Permitted allowed) :
    Permitted allowed (statement.addJoin table join) :=
  { permitted with
    tables := by
      intro other member
      rcases List.mem_append.1 member with member | member
      · exact permitted.tables other member
      · cases List.mem_singleton.1 member
        exact named
    joins := by
      intro other member
      rcases List.mem_append.1 member with member | member
      · exact permitted.joins other member
      · cases List.mem_singleton.1 member
        exact joined }

theorem restrict_permitted (permitted : Permitted allowed statement) {conditions : List (Condition Column)}
    (each : ∀ condition ∈ conditions, condition.Permitted allowed) : Permitted allowed (statement.restrict conditions) :=
  { permitted with
    conditions := by
      intro condition member
      rcases List.mem_append.1 member with member | member
      · exact permitted.conditions condition member
      · split at member
        · exact each condition member
        · rcases List.mem_cons.1 member with rfl | member
          · trivial
          · exact each condition member }

end Statement

end

def Node.Permitted (allowed : Allowance) (node : Node) : Prop :=
  ∀ statement, Statement.Permitted allowed statement → Statement.Permitted allowed (node.addTo statement)

def Step.Permitted (allowed : Allowance) (step : Step Node) : Prop :=
  ∀ statement, Statement.Permitted allowed statement → Statement.Permitted allowed (Node.addStep statement step)

theorem Node.table_permitted {allowed : Allowance} {name : String} (named : leads name.toList = true) :
    Node.Permitted allowed (.table name) := by
  intro statement permitted
  rw [Node.addTo]
  exact Statement.with_base_permitted permitted named

theorem Node.pipeline_permitted {allowed : Allowance} {steps : List (Step Node)}
    (each : ∀ step ∈ steps, Step.Permitted allowed step) : Node.Permitted allowed (.pipeline steps) := by
  intro statement permitted
  rw [Node.addTo]
  induction steps generalizing statement with
  | nil => exact permitted
  | cons step rest ih =>
    rw [Node.addSteps]
    exact ih (fun other member => each other (.tail _ member)) _ (each step (.head _) statement permitted)

namespace Lowering

variable {α β : Type} {allowed : Allowance} {scope : Scope} {holds : α → Prop} {follows : β → Prop}

structure Grows (before after : List Parameter) : Prop where
  kept : ∀ parameter ∈ before, parameter ∈ after
  distinct : (before.map Parameter.name).Nodup → (after.map Parameter.name).Nodup

theorem grows_refl (parameters : List Parameter) : Grows parameters parameters :=
  ⟨fun _ member => member, id⟩

theorem grows_trans {first second third : List Parameter} (begun : Grows first second) (ended : Grows second third) :
    Grows first third :=
  ⟨fun parameter member => ended.kept parameter (begun.kept parameter member),
    fun nodup => ended.distinct (begun.distinct nodup)⟩

theorem grows_add (name sqlType : String) (parameters : List Parameter) :
    Grows parameters (addParameter name sqlType parameters) := by
  unfold addParameter
  by_cases known : (parameters.any fun known => known.name == name) = true
  · rw [if_pos known]
    exact grows_refl parameters
  · rw [if_neg known]
    refine ⟨fun parameter member => List.mem_append_left _ member, fun nodup => ?_⟩
    have fresh : name ∉ parameters.map Parameter.name := by
      intro member
      obtain ⟨parameter, present, rfl⟩ := List.mem_map.1 member
      exact known (List.any_eq_true.2 ⟨parameter, present, beq_self_eq_true _⟩)
    rw [List.map_append, List.nodup_append]
    refine ⟨nodup, by simp, ?_⟩
    rintro first member second last rfl
    cases List.mem_singleton.1 last
    exact fresh member

theorem added_mem (name sqlType : String) (parameters : List Parameter) :
    ∃ parameter ∈ addParameter name sqlType parameters, parameter.name = name := by
  unfold addParameter
  by_cases known : (parameters.any fun known => known.name == name) = true
  · rw [if_pos known]
    obtain ⟨parameter, member, same⟩ := List.any_eq_true.1 known
    exact ⟨parameter, member, beq_iff_eq.1 same⟩
  · rw [if_neg known]
    exact ⟨⟨name, sqlType⟩, List.mem_append_right _ (.head _), rfl⟩

-- Names are bound to nodes that add nothing but clean texts.
def Scope.Permitted (allowed : Allowance) (scope : Scope) : Prop :=
  ∀ entry ∈ scope.bound, Node.Permitted allowed entry.2

theorem Scope.node_permitted (permitted : scope.Permitted allowed) {name : String} (named : leads name.toList = true) :
    Node.Permitted allowed (scope.node name) := by
  unfold Scope.node
  split
  · rename_i entry node found
    exact permitted _ (List.mem_of_find?_eq_some found)
  · exact Node.table_permitted named

-- The value is as it should be once everything that was recorded is allowed, whether it was before or not.
def Records (allowed : Allowance) (scope : Scope) (holds : α → Prop) (lowering : Lowering α) : Prop :=
  ∀ parameters value met, lowering scope parameters = .ok (value, met) →
    Grows parameters met ∧
      (scope.Permitted allowed → (∀ parameter ∈ met, allowed.parameter parameter.name) → holds value)

theorem records_pure {value : α} (right : holds value) : Records allowed scope holds (pure value) := by
  intro parameters other met done
  cases done
  exact ⟨grows_refl _, fun _ _ => right⟩

theorem records_refuse {misuse : Misuse} {span : Span} : Records allowed scope holds (refuse misuse span : Lowering α) := by
  intro parameters value met done
  cases done

-- What is known of the first value is assumed for the second one only, since it holds of the names met at the end.
theorem records_bind {first : Lowering α} {next : α → Lowering β} (begun : Records allowed scope holds first)
    (ended : ∀ value, Records allowed scope (fun result => holds value → follows result) (next value)) :
    Records allowed scope follows (first >>= next) := by
  intro parameters result met done
  obtain ⟨value, between, firstDone, nextDone⟩ := bind_ok done
  obtain ⟨grownFirst, holdsFirst⟩ := begun parameters value between firstDone
  obtain ⟨grownNext, holdsNext⟩ := ended value between result met nextDone
  refine ⟨grows_trans grownFirst grownNext, fun names recorded => ?_⟩
  exact holdsNext names recorded
    (holdsFirst names fun parameter member => recorded parameter (grownNext.kept parameter member))

theorem records_map {first : Lowering α} {next : α → β} (begun : Records allowed scope holds first)
    (ended : ∀ value, holds value → follows (next value)) : Records allowed scope follows (do return next (← first)) :=
  records_bind begun fun value => records_pure (ended value)

theorem records_mono {lowering : Lowering α} {weaker : α → Prop} (recorded : Records allowed scope holds lowering)
    (implied : ∀ value, holds value → weaker value) : Records allowed scope weaker lowering := by
  intro parameters value met done
  obtain ⟨grown, right⟩ := recorded parameters value met done
  exact ⟨grown, fun names known => implied value (right names known)⟩

theorem records_declare (name sqlType : String) :
    Records allowed scope (fun _ => allowed.parameter name) (declare name sqlType) := by
  intro parameters value met done
  cases done
  refine ⟨grows_add name sqlType parameters, fun _ recorded => ?_⟩
  obtain ⟨parameter, member, same⟩ := added_mem name sqlType parameters
  exact same ▸ recorded parameter member

theorem records_read {next : Scope → α} (right : scope.Permitted allowed → holds (next scope)) :
    Records allowed scope holds (do return next (← read)) := by
  intro parameters value met done
  cases done
  exact ⟨grows_refl _, fun names _ => right names⟩

theorem records_with_rows (names : List String) {inner : Lowering α}
    (recorded : ∀ scope, Records allowed scope holds inner) : Records allowed scope holds (withRows names inner) :=
  recorded { scope with rows := scope.rows ++ names }

theorem records_with_binding (name : String) (node : Node) {inner : Lowering α}
    (recorded : ∀ scope, Records allowed scope holds inner) :
    Records allowed scope (fun value => Node.Permitted allowed node → holds value) (withBinding name node inner) := by
  intro parameters value met done
  obtain ⟨grown, right⟩ := recorded { scope with bound := (name, node) :: scope.bound } parameters value met done
  refine ⟨grown, fun names known permitted => right ?_ known⟩
  rintro entry (_ | ⟨_, member⟩)
  · exact permitted
  · exact names entry member

theorem records_write_node (node : Node) :
    Records allowed scope (fun text => Node.Permitted allowed node → Permits allowed text) (writeNode node) := by
  intro parameters text met done
  unfold writeNode at done
  obtain ⟨current, between, reading, written⟩ := bind_ok done
  cases reading
  unfold Node.write Statement.write at written
  by_cases writable : Statement.isWritable node.statement = true
  · rw [if_pos writable] at written
    cases written
    exact ⟨grows_refl _, fun _ _ permitted =>
      Statement.sql_permitted scope.dialect true (permitted .empty Statement.empty_permitted)⟩
  · rw [if_neg writable] at written
    cases written

end Lowering

open Lowering

namespace Text

variable {allowed : Allowance}

-- The text begins, and not with a dash.
def undashed (text : String) : Bool :=
  text.toList.head?.any (· != '-')

theorem table_leads {table : String} (sound : (Token.tableWildcard table).Sound) : leads table.toList = true := by
  obtain ⟨first, parts, chars, word, words⟩ := sound
  rw [chars]
  apply leads_append (leads_word word)
  clear chars
  induction parts with
  | nil => rfl
  | cons part rest ih =>
    have others := ih fun other member => words other (.tail _ member)
    rw [Token.pathChars]
    exact leads_append (leads_append (by decide : leads ['.'] = true) (leads_word (words part (.head _)))) others

theorem decimal_leads {digits : String} (sound : (Token.decimal digits).Sound) : leads digits.toList = true := by
  obtain ⟨whole, fraction, chars, wholeDigits, fractionDigits⟩ := sound
  apply leads_parts
  intro c member
  rw [chars, List.mem_append, List.mem_cons] at member
  rcases member with member | dot | member
  · exact .inl (digit_parts wholeDigits c member)
  · exact .inr dot
  · exact .inl (digit_parts fractionDigits c member)

theorem param_permitted {name : String} (word : isWord name.toList = true) (known : allowed.parameter name) :
    Permits allowed ("@" ++ name) := by
  have clean := Clean.parameter name.toList [] word (by rwa [String.ofList_toList]) halts_nil (@Clean.nil allowed)
  rw [Permits, String.toList_append]
  rwa [List.append_nil] at clean

theorem undashed_append {first : String} (starts : undashed first = true) (second : String) :
    undashed (first ++ second) = true := by
  unfold undashed at starts ⊢
  rw [String.toList_append]
  cases chars : first.toList with
  | nil =>
    rw [chars] at starts
    cases starts
  | cons c rest =>
    rw [chars] at starts
    exact starts

theorem undashed_parts {text : String} (filled : text.toList ≠ []) (parts : ∀ c ∈ text.toList, isNamePart c = true) :
    undashed text = true := by
  unfold undashed
  rw [List.head?_eq_some_head filled]
  have part := parts _ (List.head_mem filled)
  simp only [Option.any_some, bne_iff_ne]
  intro dash
  rw [dash] at part
  exact absurd part (by decide)

theorem undashed_word {word : String} (sound : isWord word.toList = true) : undashed word = true := by
  apply undashed_parts _ (Token.word_parts _ sound)
  intro empty
  rw [empty] at sound
  cases sound

theorem undashed_digits {digits : String} (sound : isDigits digits.toList = true) : undashed digits = true := by
  apply undashed_parts _ (digit_parts sound)
  intro empty
  rw [empty] at sound
  cases sound

theorem undashed_joined (separator first : String) (rest : List String) (starts : undashed first = true) :
    undashed (joinWith separator (first :: rest)) = true := by
  cases rest with
  | nil => exact starts
  | cons second rest => exact undashed_append (undashed_append starts _) _

theorem undashed_table {table : String} (sound : (Token.tableWildcard table).Sound) : undashed table = true := by
  obtain ⟨first, parts, chars, word, -⟩ := sound
  have same : table = String.ofList first ++ String.ofList (Token.pathChars parts) := by
    apply String.toList_inj.1
    simp [chars]
  rw [same]
  exact undashed_append (undashed_word (by rwa [String.toList_ofList])) _

theorem undashed_decimal {digits : String} (sound : (Token.decimal digits).Sound) : undashed digits = true := by
  obtain ⟨whole, fraction, chars, wholeDigits, -⟩ := sound
  have same : digits = String.ofList whole ++ String.ofList ('.' :: fraction) := by
    apply String.toList_inj.1
    simp [chars]
  rw [same]
  exact undashed_append (undashed_digits (by rwa [String.toList_ofList])) _

end Text

-- A term that could be read, where a dash stands before a dash only if that is allowed.
structure Term.Sober (allowed : Allowance) (term : Term) : Prop where
  formed : term.WellFormed
  dashes : ∀ outer inner operand, (Term.unary outer .negate (.unary inner .negate operand)).Within term → allowed.comment

namespace Term

variable {allowed : Allowance} {scope : Scope} {queryText : QueryText}

theorem part_sober {term part : Term} (sober : term.Sober allowed) (member : part ∈ term.parts) : part.Sober allowed :=
  ⟨part_well_formed term part sober.formed member, fun outer inner operand within =>
    sober.dashes outer inner operand (.deeper _ part term member within)⟩

def QueriesRecord (allowed : Allowance) (queryText : QueryText) : Prop :=
  ∀ source stages, (∀ term ∈ source :: stages, term.Sober allowed) → ∀ scope,
    Records allowed scope (Permits allowed) (queryText source stages)

end Term

namespace Chunk

variable {allowed : Allowance} {scope : Scope} {queryText : QueryText} {chunk : Chunk} {chunks : List Chunk}
  {text others : String}

-- What the texts around that of a chunk rely on.
structure Written (allowed : Allowance) (chunk : Chunk) (text : String) : Prop where
  permitted : Permits allowed text
  open_leads : chunk.opens = true → chunk.isMinus = false → leads text.toList = true
  minus_only : chunk.isMinus = true → text = "-"
  close_stops : chunk.closes = true → stops text.toList = true
  starts : chunk.dashed = false → undashed text = true

theorem written_plain (lead : leads text.toList = true) (starts : undashed text = true) (other : chunk.isMinus = false)
    (stop : chunk.closes = true → stops text.toList = true) : Written allowed chunk text where
  permitted := permits_plain lead
  open_leads _ _ := lead
  minus_only single := by
    rw [other] at single
    cases single
  close_stops := stop
  starts _ := starts

-- Nothing is asked of a text that neither opens nor closes.
theorem written_whole (permitted : Permits allowed text) (closed : chunk.opens = false) (other : chunk.closes = false)
    (starts : chunk.dashed = false → undashed text = true) : Written allowed chunk text where
  permitted := permitted
  open_leads opening := by
    rw [closed] at opening
    cases opening
  minus_only single := by
    rw [minus_opens single] at closed
    cases closed
  close_stops closing := by
    rw [other] at closing
    cases closing
  starts := starts

theorem written_token {lexeme : Token} (sound : lexeme.Sound) :
    Records allowed scope (Written allowed (.token lexeme)) (Chunk.text queryText (.token lexeme)) := by
  cases lexeme with
  | keyword word =>
    refine records_pure (written_plain ?_ ?_ rfl (by simp [closes]))
    · cases word <;> decide
    · cases word <;> decide
  | ident name => exact records_pure (written_plain (leads_word sound.1) (undashed_word sound.1) rfl (by simp [closes]))
  | qualified parts =>
    have words := fun part member => sound.2 part (Term.strip_row_sub scope parts part member)
    refine records_read fun _ => written_plain ?_ ?_ rfl (by simp [closes])
    · exact leads_join_with (by decide) fun part member => leads_word (words part member)
    · have filled : scope.stripRow parts ≠ [] := Term.strip_row_filled scope parts fun empty => by
        rw [empty] at sound
        exact absurd sound.1 (by decide)
      obtain ⟨first, rest, same⟩ := List.exists_cons_of_ne_nil filled
      rw [same]
      exact undashed_joined "." first rest (undashed_word (words first (same ▸ .head _)))
  | tableWildcard table =>
    refine records_pure (written_plain (leads_append_text (table_leads sound) (by decide)) ?_ rfl (by simp [closes]))
    exact undashed_append (undashed_table sound) _
  | param name =>
    refine records_bind (records_declare name "TEXT") fun _ => records_pure fun known => ?_
    exact written_whole (param_permitted sound known) rfl rfl fun _ => undashed_append (by decide) _
  | str value =>
    refine records_pure (written_whole ?_ rfl rfl fun _ => undashed_append (undashed_append (by decide) _) _)
    rw [Permits, Token.sql, Likeness.sql_literal_chars]
    exact .literal value.toList [] (by simp) .nil
  | int digits =>
    refine records_pure (written_plain ?_ (undashed_digits sound) rfl (by simp [closes]))
    exact leads_parts fun c member => .inl (digit_parts sound c member)
  | decimal digits =>
    exact records_pure (written_plain (decimal_leads sound) (undashed_decimal sound) rfl (by simp [closes]))
  | symbol mark =>
    cases mark with
    | minus =>
      refine records_pure ⟨?_, (by simp [isMinus]), fun _ => rfl, (by simp [closes]), (by simp [dashed])⟩
      exact .other '-' [] (by decide) (by decide) (by simp) .nil
    | _ => exact records_pure (written_plain (by decide) (by decide) rfl (by decide))

theorem chunk_records (queries : Term.QueriesRecord allowed queryText) {term : Term} (sober : term.Sober allowed)
    (within : chunk.Within term) : Records allowed scope (Written allowed chunk) (chunk.text queryText) := by
  cases chunk with
  | blank => exact records_pure (written_plain (by decide) (by decide) rfl (by decide))
  | token lexeme => exact written_token (within sober.formed)
  | call name empty =>
    have word := (within sober.formed).1
    refine records_pure (written_plain (leads_append_text (leads_word word) ?_) ?_ rfl (by simp [closes]))
    · cases empty <;> decide
    · exact undashed_append (undashed_word word) _
  | numeric name =>
    refine records_bind (records_declare name "NUMERIC") fun _ => records_pure fun _ => ?_
    exact ⟨.nil, fun _ _ => rfl, (by simp [isMinus]), (by simp [closes]), (by simp [dashed])⟩
  | query source stages =>
    obtain ⟨holder, inner, -, parts⟩ := within
    have whole : holder.Sober allowed := Term.within_inherits Term.part_sober inner sober
    refine records_mono (queries source stages (fun part member => Term.part_sober whole (parts ▸ member)) scope) ?_
    exact fun text permitted => written_whole permitted rfl rfl fun other => by cases other
  | refusal => exact records_refuse

-- The texts behind those chunks may stand behind others.
structure Behind (allowed : Allowance) (chunks : List Chunk) (text : String) : Prop where
  permitted : Permits allowed text
  halts : (∀ chunk ∈ chunks.head?, chunk.closes = true) → Halts text.toList
  starts : (∀ chunk ∈ chunks.head?, chunk.dashed = false) → text.toList.head? ≠ some '-'

theorem behind_cons (beside : ∀ next ∈ chunks.head?, Beside allowed.comment chunk next) (written : Written allowed chunk text)
    (behind : Behind allowed chunks others) : Behind allowed (chunk :: chunks) (text ++ others) where
  permitted := by
    cases single : chunk.isMinus with
    | true =>
      rw [written.minus_only single, Permits, String.toList_append]
      refine .other '-' _ (by decide) (by decide) (fun _ dash => ?_) behind.permitted
      by_contra refused
      refine behind.starts (fun next found => ?_) dash
      exact Bool.eq_false_iff.2 fun dashed => refused ((beside next found).dashes single dashed)
    | false =>
      cases opening : chunk.opens with
      | true => exact permits_behind (written.open_leads opening single) behind.permitted
      | false =>
        refine permits_before written.permitted (behind.halts fun next found => ?_) behind.permitted
        exact (beside next found).apart.resolve_left (by simp [opening])
  halts closing := by
    rw [String.toList_append]
    exact stops_halts (written.close_stops (closing chunk rfl)) _
  starts other := by
    have starts := written.starts (other chunk rfl)
    intro dash
    have whole := undashed_append starts others
    rw [undashed, dash] at whole
    cases whole

theorem print_records (queries : Term.QueriesRecord allowed queryText) {term : Term} (sober : term.Sober allowed)
    (linked : Linked term allowed.comment chunks) :
    Records allowed scope (Behind allowed chunks) (print (Chunk.text queryText) chunks) := by
  induction chunks with
  | nil => exact records_pure ⟨.nil, fun _ => halts_nil, fun _ => by simp⟩
  | cons chunk rest ih =>
    obtain ⟨beside, chain⟩ := List.isChain_cons.1 linked.chain
    obtain ⟨within, others⟩ := List.forall_mem_cons.1 linked.within
    refine records_bind (chunk_records queries sober within) fun text => ?_
    exact records_map (ih ⟨others, chain⟩) fun rest behind written => behind_cons beside written behind

end Chunk

namespace Term

open Chunk

variable {allowed : Allowance} {scope : Scope} {queryText : QueryText}

theorem sober_laid {term : Term} (sober : term.Sober allowed) : Laid term allowed.comment term.chunks :=
  chunks_laid term (operand_undashed sober.formed sober.dashes)

theorem text_records (queries : QueriesRecord allowed queryText) {term : Term} (sober : term.Sober allowed) :
    Records allowed scope (Permits allowed) (term.text queryText) := by
  rw [text_chunks]
  exact records_mono (print_records queries sober (sober_laid sober).toLinked) fun _ behind => behind.permitted

theorem body_records (queries : QueriesRecord allowed queryText) {term : Term} (sober : term.Sober allowed) :
    Records allowed scope (Permits allowed) (term.bodyText queryText) := by
  have plain := @text_records _ scope _ queries term sober
  cases term with
  | lambda span params body =>
    exact records_with_rows params fun scope => text_records queries (part_sober sober (.head _))
  | _ => exact plain

theorem named_column_permitted {parts : List String} (words : ∀ part ∈ parts, isWord part.toList = true) :
    Column.Permitted allowed (namedColumn parts) := by
  have reversed : ∀ part ∈ parts.reverse, leads part.toList = true := fun part member =>
    leads_word (words part (List.mem_reverse.1 member))
  unfold namedColumn
  generalize parts.reverse = names at reversed
  cases names with
  | nil => simp [Column.Permitted]
  | cons name table =>
    cases table with
    | nil => simp [Column.Permitted, Column.ofName, reversed name (.head _)]
    | cons second rest =>
      have within : leads (joinWith "." (second :: rest).reverse).toList = true :=
        leads_join_with (by decide) fun part member => reversed part (.tail _ (List.mem_reverse.1 member))
      refine ⟨reversed name (.head _), ?_, by simp⟩
      rintro _ ⟨⟩
      exact within

theorem text_column_records (queries : QueriesRecord allowed queryText) {term : Term} (sober : term.Sober allowed) :
    Records allowed scope (Column.Permitted allowed) (do return .ofText (← term.text queryText)) :=
  records_map (text_records queries sober) fun text permitted => ⟨permitted, by simp⟩

theorem operand_column_records (queries : QueriesRecord allowed queryText) {term : Term} (sober : term.Sober allowed) :
    Records allowed scope (Column.Permitted allowed) (term.operandColumn queryText) := by
  have written := @text_column_records _ scope _ queries term sober
  have formed := sober.formed
  cases term with
  | ident span name => exact records_pure ⟨leads_word formed.1, by simp, by simp⟩
  | qualified span parts =>
    exact records_read fun _ => named_column_permitted fun part member =>
      formed.2 part (strip_row_sub scope parts part member)
  | _ => exact written

theorem condition_records (queries : QueriesRecord allowed queryText) {term : Term} (sober : term.Sober allowed) :
    Records allowed scope (Condition.Permitted allowed) (term.condition queryText) := by
  have written : Records allowed scope (Condition.Permitted allowed) (do return .expression (← term.text queryText)) :=
    records_map (text_records queries sober) fun _ permitted => permitted
  have compared : ∀ (operand : Term) (value : Lowering String) (operator : Comparison), operand.Sober allowed →
      Records allowed scope (Permits allowed) value → Records allowed scope (Condition.Permitted allowed) (do
        let column ← operand.operandColumn queryText
        return .comparison column operator (← value)) := by
    intro operand value operator operandSober recorded
    refine records_bind (operand_column_records queries operandSober) fun column => ?_
    exact records_map recorded fun right rightPermitted leftPermitted => ⟨leftPermitted, rightPermitted⟩
  have part : ∀ part ∈ term.parts, part.Sober allowed := fun part member => part_sober sober member
  cases term with
  | binary span op left right =>
    unfold condition
    by_cases comparison : op.isComparison = true
    · simp only [comparison, if_true]
      have declared : Records allowed scope (fun _ => True) (declareCompared left right) := by
        rw [declare_compared_chunks queryText]
        exact records_map (print_records queries sober (compared_linked comparison (sober_laid sober))) fun _ _ => trivial
      refine records_bind declared fun _ => records_mono (compared left (right.text queryText)
        (comparisonOf op) (part left (.head _)) (text_records queries (part right (.tail _ (.head _))))) ?_
      exact fun _ permitted _ => permitted
    · simp only [comparison]
      exact written
  | isNull span operand negated =>
    exact records_map (operand_column_records queries (part operand (.head _))) fun column permitted => ⟨permitted, .nil⟩
  | inList span operand items negated =>
    cases negated with
    | false =>
      refine compared operand _ .in (part operand (.head _)) ?_
      rw [list_text_chunks]
      exact records_mono (print_records queries sober (entries_linked (sober_laid sober))) fun _ behind => behind.permitted
    | true => exact written
  | like span operand pattern negated =>
    cases negated with
    | false =>
      exact compared operand _ .like (part operand (.head _)) (text_records queries (part pattern (.tail _ (.head _))))
    | true => exact written
  | _ => exact written

theorem conditions_record (queries : QueriesRecord allowed queryText) {term : Term} (sober : term.Sober allowed) :
    Records allowed scope (fun conditions => ∀ condition ∈ conditions, condition.Permitted allowed)
      (term.conditions queryText) := by
  induction term using parts_induction with
  | step term ih =>
    have inner := fun part (member : part ∈ term.parts) => ih part member (part_sober sober member)
    have single : Records allowed scope (fun conditions => ∀ condition ∈ conditions, condition.Permitted allowed)
        (do return [← term.condition queryText]) :=
      records_map (condition_records queries sober) fun condition permitted => by simpa using permitted
    cases term with
    | binary span op left right =>
      have connected : ∀ connective : Connective,
          Records allowed scope (fun conditions => ∀ condition ∈ conditions, condition.Permitted allowed) (do
            let before ← left.conditions queryText
            let after ← right.conditions queryText
            return before ++ .connective connective :: after) := by
        intro connective
        refine records_bind (inner left (.head _)) fun before => ?_
        refine records_map (inner right (.tail _ (.head _))) fun after second first condition member => ?_
        rcases List.mem_append.1 member with member | member
        · exact first condition member
        · rcases List.mem_cons.1 member with rfl | member
          · trivial
          · exact second condition member
      cases op with
      | and => exact connected .and
      | or => exact connected .or
      | _ => exact single
    | paren span inside =>
      refine records_map (inner inside (.head _)) fun conditions each condition member => ?_
      rcases List.mem_append.1 member with member | member
      · rcases List.mem_cons.1 member with rfl | member
        · trivial
        · exact each condition member
      · cases List.mem_singleton.1 member
        trivial
    | _ => exact single

theorem alias_permitted {column : Column} {label : String} (permitted : column.Permitted allowed)
    (named : leads label.toList = true) : (column.withAlias label).Permitted allowed := by
  have given : ∀ name, some label = some name → leads name.toList = true := by
    rintro _ ⟨⟩
    exact named
  cases column with
  | named name table old => exact ⟨permitted.1, permitted.2.1, given⟩
  | expression text old => exact ⟨permitted.1, given⟩
  | wildcard table => exact permitted
  | subQuery => exact absurd permitted id

theorem column_records (queries : QueriesRecord allowed queryText) {term : Term} (sober : term.Sober allowed) :
    Records allowed scope (Column.Permitted allowed) (term.column queryText) := by
  induction term using parts_induction with
  | step term ih =>
    have written := @text_column_records _ scope _ queries term sober
    have formed := sober.formed
    cases term with
    | aliased span inside label =>
      exact records_map (ih inside (.head _) (part_sober sober (.head _))) fun column permitted =>
        alias_permitted permitted (leads_word formed.2.2.1)
    | wildcard span table =>
      refine records_pure ?_
      rintro given rfl
      exact table_leads formed
    | ident span name => exact records_pure ⟨leads_word formed.1, by simp, by simp⟩
    | qualified span parts => exact records_pure (named_column_permitted formed.2)
    | pipe | lambda | named | ordered => exact records_refuse
    | _ => exact written

theorem columns_record (queries : QueriesRecord allowed queryText) {terms : List Term}
    (sober : ∀ term ∈ terms, term.Sober allowed) :
    Records allowed scope (fun columns => ∀ column ∈ columns, column.Permitted allowed) (columns queryText terms) := by
  induction terms with
  | nil => exact records_pure (by simp)
  | cons term rest ih =>
    rw [columns]
    refine records_bind (column_records queries (sober term (.head _))) fun first => ?_
    refine records_map (ih fun other member => sober other (.tail _ member)) fun others permitted firstPermitted => ?_
    exact List.forall_mem_cons.2 ⟨firstPermitted, permitted⟩

theorem order_item_records (queries : QueriesRecord allowed queryText) {term : Term} (sober : term.Sober allowed) :
    Records allowed scope (fun item => Permits allowed item.column) (term.orderItem queryText) := by
  have plain : Records allowed scope (fun item : OrderItem => Permits allowed item.column)
      (do return ⟨← term.bodyText queryText, .asc⟩) := records_map (body_records queries sober) fun _ permitted => permitted
  cases term with
  | ordered span inside direction =>
    have inner := @body_records _ scope _ queries inside (part_sober sober (.head _))
    cases direction with
    | ascending => exact records_map inner fun _ permitted => permitted
    | descending => exact records_map inner fun _ permitted => permitted
  | _ => exact plain

theorem order_items_record (queries : QueriesRecord allowed queryText) {terms : List Term}
    (sober : ∀ term ∈ terms, term.Sober allowed) :
    Records allowed scope (fun items => ∀ item ∈ items, Permits allowed item.column) (orderItems queryText terms) := by
  induction terms with
  | nil => exact records_pure (by simp)
  | cons term rest ih =>
    rw [orderItems]
    refine records_bind (order_item_records queries (sober term (.head _))) fun first => ?_
    refine records_map (ih fun other member => sober other (.tail _ member)) fun others permitted firstPermitted => ?_
    exact List.forall_mem_cons.2 ⟨firstPermitted, permitted⟩

end Term

end PipeSql

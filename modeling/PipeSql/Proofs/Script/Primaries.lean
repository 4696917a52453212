import PipeSql.Proofs.Script.Levels

set_option autoImplicit false

namespace PipeSql

namespace Grammar

open Recognizer Token Term

variable {term : Recognizer Term}

theorem reads_directed_plain {inner : Recognizer Term} {tokens rest : List Token} {property : Term → Prop}
    (reads : Reads inner tokens rest property)
    (other : ∀ direction : Direction, rest.head? ≠ some (.keyword direction.keyword)) :
    Reads (directed inner) tokens rest property := by
  have refuses : Refuses direction rest :=
    refuses_or_else (refuses_bind (refuses_token (other .ascending)) _)
      (refuses_or_else (refuses_bind (refuses_token (other .descending)) _) fun _ _ => rfl)
  refine reads_spanned_bind _ (reads_without reads refuses) ?_
  rintro ⟨found, _⟩ span ⟨holds, none⟩
  dsimp only at none
  subst none
  exact reads_pure holds

theorem reads_direction (given : Direction) (rest : List Token) :
    Reads direction [.keyword given.keyword] rest (· = given) := by
  cases given with
  | ascending => exact reads_first (reads_map (reads_keyword .asc rest) fun _ _ => rfl)
  | descending =>
    refine reads_second (refuses_bind (refuses_token (by simp [Direction.keyword])) _) (reads_first ?_)
    exact reads_map (reads_keyword .desc rest) fun _ _ => rfl

theorem reads_directed {inner : Recognizer Term} {tokens rest : List Token} {property : Term → Prop} (given : Direction)
    (reads : Reads inner tokens (.keyword given.keyword :: rest) property) :
    Reads (directed inner) (tokens ++ [.keyword given.keyword]) rest fun found =>
      ∃ span inside, found = .ordered span inside given ∧ property inside := by
  refine reads_spanned_bind _ (reads_with reads (reads_direction given rest)) ?_
  rintro ⟨inside, _⟩ span ⟨holds, direction, found, rfl⟩
  dsimp only at found
  subst found
  exact reads_pure ⟨span, inside, rfl, holds⟩

theorem reads_aliased_plain {tokens rest : List Token} {property : Term → Prop} (reads : Reads term tokens rest property)
    (other : rest.head? ≠ some (.keyword .as)) : Reads (aliased term) tokens rest property := by
  refine reads_spanned_bind _ (reads_without reads (refuses_bind (refuses_token other) _)) ?_
  rintro ⟨found, _⟩ span ⟨holds, none⟩
  dsimp only at none
  subst none
  exact reads_pure holds

theorem reads_aliased {tokens rest : List Token} {property : Term → Prop} (label : String)
    (reads : Reads term tokens (.keyword .as :: .ident label :: rest) property) :
    Reads (aliased term) (tokens ++ [.keyword .as, .ident label]) rest fun found =>
      ∃ span inside, found = .aliased span inside label ∧ property inside := by
  have labelRead : Reads (do keyword .as; labelled "alias after AS" identifier) [.keyword .as, .ident label] rest
      fun found => found.1 = label :=
    reads_bind (reads_keyword .as _) fun _ _ => reads_labelled (reads_identifier label rest)
  refine reads_spanned_bind _ (reads_with reads labelRead) ?_
  rintro ⟨inside, _⟩ span ⟨holds, given, found, rfl⟩
  dsimp only at found
  subst found
  exact reads_pure ⟨span, inside, rfl, holds⟩

-- The tokens end an entry of a list.
def Ends (tokens : List Token) : Prop :=
  tokens.head? = some (.symbol .comma) ∨ tokens.head? = some (.symbol .rightParen)

theorem ends_stops {tokens : List Token} (ends : Ends tokens) : Stops 1 tokens := by
  intro token head
  rcases ends with comma | closing
  · rw [comma] at head
    cases head
    decide
  · rw [closing] at head
    cases head
    decide

theorem ends_other {tokens : List Token} (ends : Ends tokens) {token : Token}
    (other : token ≠ .symbol .comma ∧ token ≠ .symbol .rightParen) : tokens.head? ≠ some token := by
  intro head
  rcases ends with comma | closing
  · rw [comma] at head
    exact other.1 (Option.some.inj head).symm
  · rw [closing] at head
    exact other.2 (Option.some.inj head).symm

-- What the induction over the number of tokens gives for the terms in a term.
def NestedBelow (depth size : Nat) : Prop :=
  ∀ part : Term, part.tokens.length < size → part.WellFormed → part.isScalar = true → 1 ≤ part.level → Nested depth part

theorem recovered_ordered {inner inside : Term} (recovered : Recovered inner inside) (span place : Span)
    (direction : Direction) : Recovered (.ordered span inner direction) (.ordered place inside direction) :=
  congrArg (Term.ordered ⟨0, 0⟩ · direction) recovered

theorem recovered_aliased {inner inside : Term} (recovered : Recovered inner inside) (span place : Span)
    (label : String) : Recovered (.aliased span inner label) (.aliased place inside label) :=
  congrArg (Term.aliased ⟨0, 0⟩ · label) recovered

theorem reads_aliased_term {depth size : Nat} (below : NestedBelow depth size) {span : Span} {inner : Term} {label : String}
    (small : (Term.aliased span inner label).tokens.length < size) (formed : (Term.aliased span inner label).WellFormed)
    (scalar : (Term.aliased span inner label).isScalar = true) (rest : List Token) :
    Reads (aliased (Grammar.term depth)) (Term.aliased span inner label).tokens rest
      (Recovered (.aliased span inner label)) := by
  have shorter := @part_tokens (.aliased span inner label) inner rfl (.head _)
  have nested := below inner (by omega) formed.2.1 (scalar_part scalar (.head _)) formed.1
  refine reads_mono (reads_aliased label (nested _ (stops_cons (by decide) _))) ?_
  rintro _ ⟨place, inside, rfl, recovered⟩
  exact recovered_aliased recovered span place label

theorem reads_argument {depth size : Nat} (below : NestedBelow depth size) {arg : Term} (small : arg.tokens.length < size)
    (formed : arg.WellFormed) (scalar : arg.isScalar = true) {rest : List Token} (ends : Ends rest) :
    Reads (argument (Grammar.term depth)) arg.tokens rest (Recovered arg) := by
  obtain ⟨first, others, tokens, opens, -⟩ := tokens_head arg formed scalar
  have unnamed : Refuses (onArgument (Grammar.term depth)) (arg.tokens ++ rest) := by
    refine refuses_bind (refuses_spanned (refuses_bind (refuses_token ?_) _)) _
    rw [tokens]
    rintro ⟨⟩
    exact absurd opens (by decide)
  have undirected : ∀ direction : Direction, rest.head? ≠ some (.keyword direction.keyword) :=
    fun direction => ends_other ends ⟨nofun, nofun⟩
  have unlabelled : rest.head? ≠ some (.keyword .as) := ends_other ends ⟨nofun, nofun⟩
  refine reads_second unnamed ?_
  rcases whole_or_argument arg with
    whole | ⟨span, inner, label, rfl⟩ | ⟨span, inner, direction, rfl⟩ | ⟨span, name, value, rfl⟩
  · have nested := below arg small formed scalar whole
    exact reads_directed_plain (reads_aliased_plain (nested rest (ends_stops ends)) unlabelled) undirected
  · exact reads_directed_plain (reads_aliased_term below small formed scalar rest) undirected
  · have shorter := @part_tokens (.ordered span inner direction) inner rfl (.head _)
    have innerScalar := scalar_part scalar (.head _)
    have read : Reads (aliased (Grammar.term depth)) inner.tokens (.keyword direction.keyword :: rest)
        (Recovered inner) := by
      by_cases whole : 1 ≤ inner.level
      · have nested := below inner (by omega) formed.2 innerScalar whole
        refine reads_aliased_plain (nested _ (stops_cons ?_ rest)) ?_
        · cases direction <;> decide
        · cases direction <;> simp [Direction.keyword]
      · have labelled := formed.1.resolve_left whole
        cases inner with
        | aliased span inside label => exact reads_aliased_term below (by omega) formed.2 innerScalar _
        | _ => cases labelled
    refine reads_mono (reads_directed direction read) ?_
    rintro _ ⟨place, inside, rfl, recovered⟩
    exact recovered_ordered recovered span place direction
  · cases ((is_scalar_iff _).1 scalar).1

theorem reads_sort_key {depth size : Nat} (below : NestedBelow depth size) {key : Term} (small : key.tokens.length < size)
    (formed : key.WellFormed) (scalar : key.isScalar = true) (sortKey : key.isSortKey = true) {rest : List Token}
    (ends : Ends rest) : Reads (directed (Grammar.term depth)) key.tokens rest (Recovered key) := by
  have undirected : ∀ direction : Direction, rest.head? ≠ some (.keyword direction.keyword) :=
    fun direction => ends_other ends ⟨nofun, nofun⟩
  rcases whole_or_argument key with
    whole | ⟨span, inner, label, rfl⟩ | ⟨span, inner, direction, rfl⟩ | ⟨span, name, value, rfl⟩
  · exact reads_directed_plain (below key small formed scalar whole rest (ends_stops ends)) undirected
  · cases sortKey
  · have shorter := @part_tokens (.ordered span inner direction) inner rfl (.head _)
    have nested := below inner (by omega) formed.2 (scalar_part scalar (.head _)) (of_decide_eq_true sortKey)
    refine reads_mono (reads_directed direction (nested _ (stops_cons ?_ rest))) ?_
    · cases direction <;> decide
    · rintro _ ⟨place, inside, rfl, recovered⟩
      exact recovered_ordered recovered span place direction
  · cases sortKey

section

variable {α ι : Type} {inner : Recognizer α} {print : ι → List Token} {related : ι → α → Prop}
  {follow : List Token → Prop} {rest : List Token}

theorem reads_separated (items : List ι) (filled : items ≠ [])
    (each : ∀ item ∈ items, ∀ following, follow following → Reads inner (print item) following (related item))
    (between : ∀ more, follow (.symbol .comma :: more)) (behind : follow rest)
    (other : rest.head? ≠ some (.symbol .comma)) :
    Reads (separated inner comma) (commaed (items.map print)) rest (List.Forall₂ related items) := by
  cases items with
  | nil => exact absurd rfl filled
  | cons first others =>
    have following : follow (others.flatMap (fun item => .symbol .comma :: print item) ++ rest) := by
      cases others with
      | nil => exact behind
      | cons second others => exact between _
    have further : ∀ item ∈ others, ∀ later, follow later →
        Reads (do comma; inner) (.symbol .comma :: print item) later (related item) := fun item member later follows =>
      reads_bind (reads_symbol .comma _) fun _ _ => each item (.tail _ member) later follows
    have several := reads_many others further (fun _ _ _ => between _) (fun _ _ => List.cons_ne_nil _ _) behind
      (refuses_bind (refuses_token other) _)
    rw [List.map_cons, commaed, List.flatMap_map]
    refine reads_bind (each first (.head _) _ following) fun value holds => ?_
    exact reads_map several fun values recovered => .cons holds recovered

theorem reads_separated_or_none (items : List ι)
    (each : ∀ item ∈ items, ∀ following, follow following → Reads inner (print item) following (related item))
    (between : ∀ more, follow (.symbol .comma :: more)) (behind : follow rest) (other : rest.head? ≠ some (.symbol .comma))
    (refuses : Refuses inner rest) :
    Reads (separatedOrNone inner comma) (commaed (items.map print)) rest (List.Forall₂ related items) := by
  cases items with
  | nil => exact reads_second (refuses_bind refuses _) (reads_pure .nil)
  | cons first others => exact reads_first (reads_separated _ (List.cons_ne_nil _ _) each between behind other)

end

theorem reads_window_part {inner : Recognizer Term} {follow : List Token → Prop} {rest : List Token} (first : Keyword)
    (entries : List Term)
    (each : ∀ entry ∈ entries, ∀ following, follow following → Reads inner entry.tokens following (Recovered entry))
    (between : ∀ more, follow (.symbol .comma :: more)) (behind : follow rest)
    (other : rest.head? ≠ some (.symbol .comma) ∧ rest.head? ≠ some (.keyword first)) :
    Reads (optional (do keyword first; keyword .by; separated inner comma))
      (Token.windowPart first (entries.map tokens)) rest fun found => List.Forall₂ Recovered entries (found.getD []) := by
  cases entries with
  | nil =>
    refine reads_mono (reads_none (refuses_bind (refuses_token other.2) _)) ?_
    rintro _ rfl
    exact .nil
  | cons entry others =>
    have listed := reads_separated (entry :: others) (List.cons_ne_nil _ _) each between behind other.1
    have introduced : Reads (do keyword first; keyword .by; separated inner comma)
        (Token.windowPart first ((entry :: others).map tokens)) rest (List.Forall₂ Recovered (entry :: others)) :=
      reads_bind (reads_keyword first _) fun _ _ => reads_bind (reads_keyword .by _) fun _ _ => listed
    refine reads_mono (reads_some introduced) ?_
    rintro _ ⟨found, rfl, recovered⟩
    exact recovered

theorem reads_window {depth size : Nat} (below : NestedBelow depth size) (partitionBy orderBy : List Term)
    (small : ∀ entry ∈ partitionBy ++ orderBy, entry.tokens.length < size)
    (scalar : ∀ entry ∈ partitionBy ++ orderBy, entry.isScalar = true) (partitionFormed : Formed 1 partitionBy)
    (orderFormed : Formed 0 orderBy) (sortKeys : ∀ key ∈ orderBy, key.isSortKey = true) (rest : List Token) :
    Reads (do keyword .over; window (Grammar.term depth))
      (Token.window (listTokens partitionBy) (listTokens orderBy)) rest fun found =>
        List.Forall₂ Recovered partitionBy found.1 ∧ List.Forall₂ Recovered orderBy found.2 := by
  have partitions : ∀ entry ∈ partitionBy, ∀ following, Stops 1 following →
      Reads (Grammar.term depth) entry.tokens following (Recovered entry) := by
    intro entry member following stops
    obtain ⟨whole, formed⟩ := (formed_iff 1 partitionBy).1 partitionFormed entry member
    have listed := List.mem_append_left orderBy member
    exact below entry (small entry listed) formed (scalar entry listed) whole following stops
  have orders : ∀ key ∈ orderBy, ∀ following, Ends following →
      Reads (directed (Grammar.term depth)) key.tokens following (Recovered key) := by
    intro key member following ends
    have listed := List.mem_append_right partitionBy member
    exact reads_sort_key below (small key listed) ((formed_iff 0 orderBy).1 orderFormed key member).2 (scalar key listed)
      (sortKeys key member) ends
  have closing : Ends (.symbol .rightParen :: rest) := .inr rfl
  have order := reads_window_part .order orderBy orders (fun _ => .inl rfl) closing ⟨by simp, by simp⟩
  have head : ∀ token, (Token.windowPart .order (orderBy.map tokens) ++ .symbol .rightParen :: rest).head? = some token →
      token = .keyword .order ∨ token = .symbol .rightParen := by
    cases orderBy with
    | nil =>
      rintro _ ⟨⟩
      exact .inr rfl
    | cons key others =>
      rintro _ ⟨⟩
      exact .inl rfl
  have partition := reads_window_part .partition partitionBy partitions (fun _ => stops_cons (by decide) _)
    (fun token first => by rcases head token first with rfl | rfl <;> decide)
    ⟨fun comma => absurd (head _ comma) (by decide), fun twice => absurd (head _ twice) (by decide)⟩
  rw [Token.window, enclosed, list_tokens, list_tokens, List.append_assoc]
  refine reads_bind (reads_keyword .over _) fun _ _ => ?_
  refine reads_bind (reads_labelled (reads_symbol .leftParen _)) fun _ _ => ?_
  refine reads_bind (by rw [List.append_assoc]; exact partition) fun foundPartition partitionRecovered => ?_
  refine reads_bind order fun foundOrder orderRecovered => ?_
  refine reads_map (reads_labelled (reads_symbol .rightParen rest)) fun _ _ => ?_
  exact ⟨partitionRecovered, orderRecovered⟩

theorem closed_cons {token : Token} (closing : token.opening = 0) (rest : List Token) : Closed (token :: rest) := by
  rintro _ ⟨⟩
  exact closing

theorem refuses_argument (depth : Nat) (rest : List Token) :
    Refuses (argument (Grammar.term depth)) (.symbol .rightParen :: rest) := by
  have refuses := refuses_term (closed_cons rfl rest : Closed (.symbol .rightParen :: rest)) depth
  refine refuses_or_else (refuses_bind (refuses_spanned (refuses_bind (refuses_token (by simp)) _)) _) ?_
  exact refuses_bind (refuses_spanned (refuses_bind (refuses_bind (refuses_spanned (refuses_bind refuses _)) _) _)) _

theorem list_head {terms : List Term} (formed : Formed 0 terms) (scalar : ∀ term ∈ terms, term.isScalar = true)
    (rest : List Token) : ∀ token, (commaed (terms.map tokens) ++ .symbol .rightParen :: rest).head? = some token →
      token = .symbol .rightParen ∨ 1 ≤ token.opening := by
  cases terms with
  | nil =>
    rintro _ ⟨⟩
    exact .inl rfl
  | cons term others =>
    obtain ⟨first, more, front, opens, -⟩ := tokens_head term formed.2.1 (scalar term (.head _))
    rw [List.map_cons, commaed, front]
    rintro _ ⟨⟩
    exact .inr opens

def CallRecovered (head : CallHead) (args : List Term) (framed : Option (List Term × List Term) → Prop) (found : Term) :
    Prop :=
  ∃ span foundHead foundArgs frame, foundHead.name = Function.sqlName head.name ∧ foundHead.distinct = head.distinct ∧
    List.Forall₂ Recovered args foundArgs ∧ framed frame ∧
    found = match frame with
      | some (partitionBy, orderBy) => .windowed span foundHead foundArgs partitionBy orderBy
      | none => .call span foundHead foundArgs

theorem reads_call {depth size : Nat} (below : NestedBelow depth size) (head : CallHead) (args : List Term)
    (small : ∀ arg ∈ args, arg.tokens.length < size) (formed : Formed 0 args) (scalar : ∀ arg ∈ args, arg.isScalar = true)
    {frameTokens rest : List Token} {framed : Option (List Term × List Term) → Prop}
    (frame : Reads (optional (do keyword .over; window (Grammar.term depth))) frameTokens rest framed) :
    Reads (call (Grammar.term depth)) (head.tokens (listTokens args) ++ frameTokens) rest
      (CallRecovered head args framed) := by
  have each : ∀ arg ∈ args, ∀ following, Ends following →
      Reads (argument (Grammar.term depth)) arg.tokens following (Recovered arg) := fun arg member following ends =>
    reads_argument below (small arg member) ((formed_iff 0 args).1 formed arg member).2 (scalar arg member) ends
  have listed := @reads_separated_or_none _ _ _ _ _ _ (.symbol .rightParen :: (frameTokens ++ rest)) args each
    (fun _ => .inl rfl) (.inr rfl) (by simp) (refuses_argument depth _)
  have distinct : Reads (optional (keyword .distinct)) (if head.distinct then [.keyword .distinct] else [])
      (commaed (args.map tokens) ++ .symbol .rightParen :: (frameTokens ++ rest))
      fun found => found.isSome = head.distinct := by
    cases head.distinct with
    | true =>
      refine reads_mono (reads_some (reads_keyword .distinct _)) ?_
      rintro _ ⟨_, rfl, -⟩
      rfl
    | false =>
      refine reads_mono (reads_none (refuses_token fun first => ?_)) ?_
      · exact absurd (list_head formed scalar _ _ first) (by decide)
      · rintro _ rfl
        rfl
  refine reads_spanned_bind (fun found => found.1.name = Function.sqlName head.name ∧ found.1.distinct = head.distinct ∧
    List.Forall₂ Recovered args found.2.1 ∧ framed found.2.2) ?_ ?_
  · rw [CallHead.tokens, enclosed, list_tokens]
    simp only [List.cons_append, List.append_assoc, List.nil_append]
    refine reads_bind (reads_identifier _ _) ?_
    rintro ⟨name, nameSpan⟩ rfl
    refine reads_bind (reads_symbol .leftParen _) fun _ _ => ?_
    refine reads_bind (by rw [List.append_assoc]; exact distinct) fun foundDistinct sameDistinct => ?_
    refine reads_bind listed fun foundArgs argsRecovered => ?_
    refine reads_bind (reads_labelled (reads_symbol .rightParen _)) fun _ _ => ?_
    exact reads_map frame fun foundFrame holds => ⟨rfl, sameDistinct, argsRecovered, holds⟩
  · rintro ⟨foundHead, foundArgs, foundFrame⟩ span ⟨name, sameDistinct, argsRecovered, holds⟩
    cases foundFrame with
    | none => exact reads_pure ⟨span, foundHead, foundArgs, none, name, sameDistinct, argsRecovered, holds, rfl⟩
    | some window =>
      exact reads_pure ⟨span, foundHead, foundArgs, some window, name, sameDistinct, argsRecovered, holds, rfl⟩

def BranchRecovered (original found : Term × Term) : Prop :=
  Recovered original.1 found.1 ∧ Recovered original.2 found.2

theorem reads_branch {depth : Nat} {original : Term × Term} (condition : Nested depth original.1)
    (value : Nested depth original.2) {rest : List Token} (stops : Stops 1 rest) :
    Reads (branch (Grammar.term depth)) (.keyword .when :: (original.1.tokens ++ .keyword .then :: original.2.tokens)) rest
      (BranchRecovered original) := by
  refine reads_bind (reads_keyword .when _) fun _ _ => ?_
  refine reads_bind (condition _ (stops_cons (by decide) _)) fun foundCondition conditionRecovered => ?_
  refine reads_bind (reads_keyword .then _) fun _ _ => ?_
  exact reads_map (value rest stops) fun foundValue valueRecovered => ⟨conditionRecovered, valueRecovered⟩

theorem reads_branches {depth : Nat} {branches : List (Term × Term)}
    (each : ∀ branch ∈ branches, Nested depth branch.1 ∧ Nested depth branch.2) {rest : List Token} (stops : Stops 1 rest)
    (other : rest.head? ≠ some (.keyword .when)) :
    Reads (many (branch (Grammar.term depth))) (branchTokens branches) rest (List.Forall₂ BranchRecovered branches) := by
  have single : ∀ original ∈ branches, ∀ following, Stops 1 following →
      Reads (branch (Grammar.term depth)) (.keyword .when :: (original.1.tokens ++ .keyword .then :: original.2.tokens))
        following (BranchRecovered original) := fun original member following stops =>
    reads_branch (each original member).1 (each original member).2 stops
  rw [branch_tokens]
  exact reads_many branches single (fun _ _ _ => stops_cons (by decide) _) (fun _ _ => List.cons_ne_nil _ _) stops
    (refuses_bind (refuses_token other) _)

theorem reads_option {depth : Nat} {original : Option Term} (nested : ∀ inner, original = some inner → Nested depth inner)
    {rest : List Token} (closed : Closed rest) (stops : Stops 1 rest) :
    Reads (optional (Grammar.term depth)) (optionTokens [] original) rest fun found =>
      bareOption id found = bareOption Function.sqlName original := by
  cases original with
  | none =>
    refine reads_mono (reads_none (refuses_term closed depth)) ?_
    rintro _ rfl
    rfl
  | some inner =>
    refine reads_mono (reads_some (nested inner rfl rest stops)) ?_
    rintro _ ⟨found, rfl, recovered⟩
    exact congrArg some recovered

theorem reads_otherwise {depth : Nat} {original : Option Term}
    (nested : ∀ inner, original = some inner → Nested depth inner) {rest : List Token} (stops : Stops 1 rest) (other : rest.head? ≠ some (.keyword .else)) :
    Reads (optional (do keyword .else; Grammar.term depth)) (optionTokens [.keyword .else] original) rest fun found =>
      bareOption id found = bareOption Function.sqlName original := by
  cases original with
  | none =>
    refine reads_mono (reads_none (refuses_bind (refuses_token other) _)) ?_
    rintro _ rfl
    rfl
  | some inner =>
    have introduced := reads_bind (reads_keyword .else _) fun _ _ => nested inner rfl rest stops
    refine reads_mono (reads_some introduced) ?_
    rintro _ ⟨found, rfl, recovered⟩
    exact congrArg some recovered

theorem recovered_branches {branches found : List (Term × Term)} (recovered : List.Forall₂ BranchRecovered branches found) :
    bareBranches id found = bareBranches Function.sqlName branches := by
  induction recovered with
  | nil => rfl
  | cons first others ih =>
    simp only [bareBranches, ih]
    rw [first.1, first.2]

theorem reads_cases {depth : Nat} {span : Span} {operand otherwise : Option Term} {branches : List (Term × Term)}
    (filled : branches ≠ []) (operandNested : ∀ inner, operand = some inner → Nested depth inner)
    (each : ∀ branch ∈ branches, Nested depth branch.1 ∧ Nested depth branch.2)
    (otherwiseNested : ∀ inner, otherwise = some inner → Nested depth inner) (rest : List Token) :
    Reads (cases (Grammar.term depth)) (Term.cases span operand branches otherwise).tokens rest
      (Recovered (.cases span operand branches otherwise)) := by
  -- Behind the branches stand ELSE or END, and a branch begins with WHEN: no term goes on or begins there.
  have ended : ∀ token, (optionTokens [.keyword .else] otherwise ++ .keyword .end :: rest).head? = some token →
      token = .keyword .else ∨ token = .keyword .end := by
    cases otherwise with
    | none =>
      rintro _ ⟨⟩
      exact .inr rfl
    | some inner =>
      rintro _ ⟨⟩
      exact .inl rfl
  have endStops : Stops 1 (optionTokens [.keyword .else] otherwise ++ .keyword .end :: rest) := by
    intro token head
    rcases ended token head with rfl | rfl <;> decide
  obtain ⟨first, others, rfl⟩ := List.exists_cons_of_ne_nil filled
  have several := reads_branches (fun branch member => each branch (.tail _ member)) endStops
    fun again => absurd (ended _ again) (by decide)
  have following : Stops 1 (branchTokens others ++ (optionTokens [.keyword .else] otherwise ++ .keyword .end :: rest)) := by
    cases others with
    | nil => exact endStops
    | cons second others => exact stops_cons (by decide) _
  have one := reads_branch (each first (.head _)).1 (each first (.head _)).2 following
  have otherwiseRead := @reads_otherwise depth otherwise otherwiseNested (.keyword .end :: rest)
    (stops_cons (by decide) _) (by simp)
  refine reads_spanned_bind (fun found => bareOption id found.1 = bareOption Function.sqlName operand ∧
    List.Forall₂ BranchRecovered (first :: others) found.2.1 ∧
    bareOption id found.2.2 = bareOption Function.sqlName otherwise) ?_ ?_
  · obtain ⟨condition, value⟩ := first
    have shape : (Term.cases span operand ((condition, value) :: others) otherwise).tokens =
        .keyword .case :: (optionTokens [] operand ++
          (.keyword .when :: (condition.tokens ++ .keyword .then :: value.tokens) ++ (branchTokens others ++
            (optionTokens [.keyword .else] otherwise ++ [.keyword .end])))) := by
      simp [tokens, branchTokens]
    rw [shape]
    refine reads_bind (reads_keyword .case _) fun _ _ => ?_
    refine reads_bind (reads_option operandNested (closed_cons rfl _) (stops_cons (by decide) _))
      fun foundOperand same => ?_
    refine reads_bind (by simpa using one) fun foundFirst firstRecovered => ?_
    refine reads_bind (by simpa using several) fun foundOthers othersRecovered => ?_
    refine reads_bind otherwiseRead fun foundOtherwise sameOtherwise => ?_
    exact reads_map (reads_keyword .end rest) fun _ _ => ⟨same, .cons firstRecovered othersRecovered, sameOtherwise⟩
  · rintro ⟨foundOperand, foundBranches, foundOtherwise⟩ place ⟨sameOperand, branchesRecovered, sameOtherwise⟩
    refine reads_pure ?_
    rw [Recovered, bare, bare, sameOperand, sameOtherwise, recovered_branches branchesRecovered]

theorem reads_pipe_one {depth : Nat} {original : Term} (nested : Nested depth original) {rest : List Token}
    (stops : Stops 1 rest) (last : rest.head? ≠ some (.symbol .pipe)) :
    Reads (pipe (Grammar.term depth)) original.tokens rest fun found =>
      ∃ inside, found = ⟨inside, []⟩ ∧ Recovered original inside := by
  rw [← List.append_nil original.tokens]
  refine reads_bind (nested rest stops) fun inside recovered => ?_
  refine reads_map (reads_no_more (refuses_bind (refuses_token last) _)) ?_
  rintro _ rfl
  exact ⟨inside, rfl, recovered⟩

theorem reads_parenthesis {depth : Nat} {original : Term} (nested : Nested depth original) (rest : List Token) :
    Reads (parenthesis (Grammar.term depth)) (enclosed original.tokens) rest (Recovered original) := by
  refine reads_spanned_bind (fun found => ∃ inside, found = ⟨inside, []⟩ ∧ Recovered original inside) ?_ ?_
  · refine reads_bind (reads_symbol .leftParen _) fun _ _ => ?_
    refine reads_bind (reads_pipe_one nested (stops_cons (by decide) _) (by simp)) fun query single => ?_
    exact reads_map (reads_symbol .rightParen rest) fun _ _ => single
  · rintro _ span ⟨inside, rfl, recovered⟩
    exact reads_pure recovered

theorem reads_list_entry {depth : Nat} {original : Term} (nested : Nested depth original) {rest : List Token}
    (ends : Ends rest) : Reads (listEntry (Grammar.term depth)) original.tokens rest (Recovered original) := by
  have last : rest.head? ≠ some (.symbol .pipe) := ends_other ends ⟨nofun, nofun⟩
  rw [← List.append_nil original.tokens]
  refine reads_bind (reads_pipe_one nested (ends_stops ends) last) ?_
  rintro _ ⟨inside, rfl, recovered⟩
  exact reads_pure recovered

theorem recovered_all {originals found : List Term} (recovered : List.Forall₂ Recovered originals found) :
    bareAll id found = bareAll Function.sqlName originals := by
  induction recovered with
  | nil => rfl
  | cons first others ih => rw [bareAll, bareAll, ih, first]

section

variable {depth : Nat} {span : Span}

theorem reads_call_term {head : CallHead} {args : List Term} (formed : (Term.call span head args).WellFormed)
    (scalar : (Term.call span head args).isScalar = true)
    (below : NestedBelow depth (Term.call span head args).tokens.length) {rest : List Token} (stops : Stops 8 rest) :
    Reads (primary (Grammar.term depth)) (Term.call span head args).tokens rest (Recovered (.call span head args)) := by
  have unframed : Reads (optional (do keyword .over; window (Grammar.term depth))) [] rest (· = none) :=
    reads_none (refuses_bind (refuses_token (stops_other stops (by decide))) _)
  have read := reads_call below head args (fun arg member => @part_tokens (.call span head args) arg rfl member) formed.2
    (fun arg member => scalar_part scalar member) unframed
  rw [List.append_nil] at read
  refine reads_labelled (reads_second (refuses_terminal ?_) (reads_first (reads_mono read ?_)))
  · rintro _ ⟨⟩
    rfl
  · rintro _ ⟨place, foundHead, foundArgs, _, name, distinct, argsRecovered, rfl, rfl⟩
    rw [Recovered, bare, bare, recovered_all argsRecovered, name, distinct]
    rfl

theorem reads_windowed_term {head : CallHead} {args partitionBy orderBy : List Term}
    (formed : (Term.windowed span head args partitionBy orderBy).WellFormed)
    (scalar : (Term.windowed span head args partitionBy orderBy).isScalar = true)
    (below : NestedBelow depth (Term.windowed span head args partitionBy orderBy).tokens.length) (rest : List Token) :
    Reads (primary (Grammar.term depth)) (Term.windowed span head args partitionBy orderBy).tokens rest
      (Recovered (.windowed span head args partitionBy orderBy)) := by
  obtain ⟨-, argsFormed, partitionFormed, orderFormed, sortKeys⟩ := formed
  have part : ∀ part, part ∈ args ∨ part ∈ partitionBy ++ orderBy →
      part ∈ (Term.windowed span head args partitionBy orderBy).parts := by
    intro part member
    rw [parts, List.append_assoc]
    exact List.mem_append.2 member
  have small := fun entry member =>
    @part_tokens (.windowed span head args partitionBy orderBy) entry rfl (part entry member)
  have framed := reads_some (reads_window below partitionBy orderBy (fun entry member => small entry (.inr member))
    (fun entry member => scalar_part scalar (part entry (.inr member))) partitionFormed orderFormed sortKeys rest)
  have read := reads_call below head args (fun arg member => small arg (.inl member)) argsFormed
    (fun arg member => scalar_part scalar (part arg (.inl member))) framed
  refine reads_labelled (reads_second (refuses_terminal ?_) (reads_first (reads_mono read ?_)))
  · rintro _ ⟨⟩
    rfl
  · rintro _ ⟨place, foundHead, foundArgs, _, name, distinct, argsRecovered,
      ⟨⟨foundPartition, foundOrder⟩, rfl, partitionRecovered, orderRecovered⟩, rfl⟩
    rw [Recovered, bare, bare, recovered_all argsRecovered, recovered_all partitionRecovered,
      recovered_all orderRecovered, name, distinct]
    rfl

-- A case distinction and a parenthesis are told from what the grammar tries before them by their first tokens.
theorem reads_cases_term {operand otherwise : Option Term} {branches : List (Term × Term)}
    (formed : (Term.cases span operand branches otherwise).WellFormed)
    (scalar : (Term.cases span operand branches otherwise).isScalar = true)
    (below : NestedBelow depth (Term.cases span operand branches otherwise).tokens.length) (rest : List Token) :
    Reads (primary (Grammar.term depth)) (Term.cases span operand branches otherwise).tokens rest
      (Recovered (.cases span operand branches otherwise)) := by
  obtain ⟨operandFormed, filled, branchesFormed, otherwiseFormed⟩ := formed
  rw [branches_formed_iff] at branchesFormed
  have nested : ∀ part ∈ (Term.cases span operand branches otherwise).parts, FormedAt 1 part → Nested depth part :=
    fun part member formed => below part (part_tokens rfl member) formed.2 (scalar_part scalar member) formed.1
  obtain ⟨ofOperand, ofBranches, ofOtherwise⟩ := cases_parts nested
  have operandNested : ∀ inner, operand = some inner → Nested depth inner := fun inner same =>
    ofOperand inner same ((option_formed_iff operand).1 operandFormed inner same)
  have otherwiseNested : ∀ inner, otherwise = some inner → Nested depth inner := fun inner same =>
    ofOtherwise inner same ((option_formed_iff otherwise).1 otherwiseFormed inner same)
  have each : ∀ branch ∈ branches, Nested depth branch.1 ∧ Nested depth branch.2 := fun branch member =>
    ⟨(ofBranches branch member).1 (branchesFormed branch member).1,
      (ofBranches branch member).2 (branchesFormed branch member).2⟩
  have read := @reads_cases depth span operand otherwise branches filled operandNested each otherwiseNested rest
  have head : ((Term.cases span operand branches otherwise).tokens ++ rest).head? = some (.keyword .case) := rfl
  have name : ∀ name, ((Term.cases span operand branches otherwise).tokens ++ rest).head? ≠ some (.ident name) := by
    simp [head]
  refine reads_labelled (reads_second (refuses_terminal ?_) (reads_second (refuses_call name)
    (reads_second (refuses_bind (refuses_identifier name) _) (reads_second (refuses_lambda ?_) (reads_first read)))))
  · rintro _ ⟨⟩
    rfl
  · simp [head]

theorem reads_paren_term {inner : Term} (nested : Nested depth inner) (rest : List Token) :
    Reads (primary (Grammar.term depth)) (Term.paren span inner).tokens rest (Recovered (.paren span inner)) := by
  have name : ∀ name, ((Term.paren span inner).tokens ++ rest).head? ≠ some (.ident name) := nofun
  refine reads_labelled (reads_second (refuses_terminal ?_) (reads_second (refuses_call name)
    (reads_second (refuses_bind (refuses_identifier name) _) (reads_second (refuses_lambda nofun)
      (reads_second (refuses_cases nofun) (reads_second (refuses_existence nofun)
        (reads_first (reads_parenthesis nested rest))))))))
  rintro _ ⟨⟩
  rfl

end

end Grammar

end PipeSql

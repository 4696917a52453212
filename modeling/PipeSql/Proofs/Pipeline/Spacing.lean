import Mathlib.Data.List.Chain
import PipeSql.Proofs.Pipeline.Chunks

set_option autoImplicit false

namespace PipeSql

theorem Function.sql_name_sound {name : String} (sound : (Token.ident name).Sound) :
    (Token.ident (Function.sqlName name)).Sound := by
  unfold Function.sqlName
  split
  · rename_i word function found
    have listed : ∀ entry ∈ Function.synonyms,
        Text.isWord entry.2.toList = true ∧ Keyword.ofWord? entry.2 = none := by decide
    exact listed _ (List.mem_of_find?_eq_some found)
  · have listed : ∀ function ∈ Function.known,
        Text.isWord function.toList = true ∧ Keyword.ofWord? function = none := by decide
    cases found : Function.known.find? fun function => Text.sameWord function name with
    | none => exact sound
    | some function => exact listed function (List.mem_of_find?_eq_some found)

namespace Term

def isQuery : Term → Bool
  | .exists .. | .pipe .. => true
  | _ => false

theorem within_inherits {holds : Term → Prop}
    (inherit : ∀ {term part : Term}, holds term → part ∈ term.parts → holds part) {inner outer : Term}
    (within : inner.Within outer) (right : holds outer) : holds inner := by
  induction within with
  | self => exact right
  | deeper part outer member within ih => exact ih (inherit right member)

theorem within_height {inner outer : Term} (within : inner.Within outer) : inner.height ≤ outer.height :=
  within_inherits (fun lower member => Nat.le_trans (Nat.le_of_lt (part_height _ _ member)) lower) within (Nat.le_refl _)

theorem query_height {holder source : Term} {stages : List Term} (query : holder.isQuery = true)
    (parts : holder.parts = source :: stages) : (Pipe.mk source stages).height < holder.height := by
  cases holder with
  | «exists» span first rest | pipe span first rest =>
    cases parts
    exact Nat.lt_succ_self _
  | _ => cases query

end Term

namespace Chunk

-- The chunk can come from the term: its names can be written, and what is not text itself stands in the term.
def Within (term : Term) : Chunk → Prop
  | .blank => True
  | .token lexeme => term.WellFormed → lexeme.Sound
  | .call name _ => term.WellFormed → (Token.ident name).Sound
  | .numeric name => term.WellFormed → (Token.param name).Sound
  | .query source stages => ∃ holder : Term, holder.Within term ∧ holder.isQuery = true ∧ holder.parts = source :: stages
  | .refusal .. => ∃ holder : Term, holder.Within term ∧ holder.isPlain = false

-- Anything can stand right behind the chunk.
def opens : Chunk → Bool
  | .blank | opening | minus | .call _ false | .numeric _ => true
  | _ => false

-- The chunk can stand right behind anything.
def closes : Chunk → Bool
  | .blank | closing | comma => true
  | _ => false

-- Something must follow that is neither blank nor a parenthesis that closes.
def awaits : Chunk → Bool
  | .call _ false | .numeric _ => true
  | _ => false

def begins : Chunk → Bool
  | .blank | closing | comma | .query .. => false
  | _ => true

def ends : Chunk → Bool
  | comma | .query .. => false
  | chunk => !chunk.opens

def isMinus : Chunk → Bool
  | minus => true
  | _ => false

-- The text may begin with a dash.
def dashed : Chunk → Bool
  | minus | .numeric _ | .query .. => true
  | _ => false

structure Beside (doubled : Prop) (left right : Chunk) : Prop where
  apart : left.opens = true ∨ right.closes = true
  filled : left.awaits = true → right.begins = true
  dashes : left.isMinus = true → right.dashed = true → doubled

structure Linked (term : Term) (doubled : Prop) (chunks : List Chunk) : Prop where
  within : ∀ chunk ∈ chunks, chunk.Within term
  chain : chunks.IsChain (Beside doubled)

-- Chunks that can stand where those of a term can.
structure Laid (term : Term) (doubled : Prop) (chunks : List Chunk) : Prop extends Linked term doubled chunks where
  first : ∃ chunk ∈ chunks.head?, chunk.begins = true
  last : ∃ chunk ∈ chunks.getLast?, chunk.ends = true

-- Chunks that can stand behind those of a term.
structure Trails (term : Term) (doubled : Prop) (chunks : List Chunk) : Prop extends Linked term doubled chunks where
  first : ∀ chunk ∈ chunks.head?, chunk.closes = true
  last : ∀ chunk ∈ chunks.getLast?, chunk.ends = true

variable {term part : Term} {doubled : Prop} {chunk left right : Chunk} {chunks others inner : List Chunk}

theorem within_deeper (member : part ∈ term.parts) (within : chunk.Within part) : chunk.Within term := by
  cases chunk with
  | query | refusal =>
    obtain ⟨holder, inner, right⟩ := within
    exact ⟨holder, .deeper _ part term member inner, right⟩
  | token | call | numeric => exact fun formed => within (Term.part_well_formed term part formed member)
  | blank => trivial

theorem minus_opens (single : chunk.isMinus = true) : chunk.opens = true := by
  unfold isMinus at single
  split at single
  · rfl
  · cases single

theorem ends_apart (ending : chunk.ends = true) : chunk.awaits = false ∧ chunk.isMinus = false := by
  cases chunk with
  | token lexeme =>
    cases lexeme with
    | symbol mark => cases mark <;> first | exact ⟨rfl, rfl⟩ | cases ending
    | _ => exact ⟨rfl, rfl⟩
  | call name empty =>
    cases empty with
    | true => exact ⟨rfl, rfl⟩
    | false => cases ending
  | refusal => exact ⟨rfl, rfl⟩
  | blank | numeric | query => cases ending

theorem beside_closing (ending : left.ends = true) (closing : right.closes = true) : Beside doubled left right where
  apart := .inr closing
  filled awaiting := by
    rw [(ends_apart ending).1] at awaiting
    cases awaiting
  dashes single := by
    rw [(ends_apart ending).2] at single
    cases single

-- Nothing is asked of what follows.
theorem beside_opening (opening : left.opens = true) (free : left.awaits = false) (other : left.isMinus = false) :
    Beside doubled left right where
  apart := .inl opening
  filled awaiting := by
    rw [free] at awaiting
    cases awaiting
  dashes single := by
    rw [other] at single
    cases single

theorem linked_append (before : Linked term doubled chunks) (after : Linked term doubled others)
    (beside : ∀ left ∈ chunks.getLast?, ∀ right ∈ others.head?, Beside doubled left right) :
    Linked term doubled (chunks ++ others) :=
  ⟨List.forall_mem_append.2 ⟨before.within, after.within⟩, List.isChain_append.2 ⟨before.chain, after.chain, beside⟩⟩

theorem linked_parts (linked : Linked term doubled (chunks ++ others)) :
    Linked term doubled chunks ∧ Linked term doubled others := by
  obtain ⟨before, after⟩ := List.forall_mem_append.1 linked.within
  obtain ⟨first, second, -⟩ := List.isChain_append.1 linked.chain
  exact ⟨⟨before, first⟩, ⟨after, second⟩⟩

theorem linked_cons (within : chunk.Within term) (beside : ∀ next ∈ chunks.head?, Beside doubled chunk next)
    (linked : Linked term doubled chunks) : Linked term doubled (chunk :: chunks) :=
  ⟨List.forall_mem_cons.2 ⟨within, linked.within⟩, List.isChain_cons.2 ⟨beside, linked.chain⟩⟩

theorem linked_single (within : chunk.Within term) : Linked term doubled [chunk] :=
  ⟨List.forall_mem_singleton.2 within, List.isChain_singleton chunk⟩

theorem laid_deeper (member : part ∈ term.parts) (laid : Laid part doubled chunks) : Laid term doubled chunks :=
  { laid with within := fun chunk present => within_deeper member (laid.within chunk present) }

theorem laid_single (within : chunk.Within term) (beginning : chunk.begins = true) (ending : chunk.ends = true) :
    Laid term doubled [chunk] :=
  ⟨linked_single within, ⟨chunk, rfl, beginning⟩, ⟨chunk, rfl, ending⟩⟩

theorem laid_append (laid : Laid term doubled chunks) (trails : Trails term doubled others) :
    Laid term doubled (chunks ++ others) := by
  obtain ⟨first, front, beginning⟩ := laid.first
  obtain ⟨last, back, ending⟩ := laid.last
  refine ⟨linked_append laid.toLinked trails.toLinked ?_, ⟨first, List.mem_head?_append_of_mem_head? front, beginning⟩, ?_⟩
  · intro left found right next
    cases Option.mem_unique back found
    exact beside_closing ending (trails.first right next)
  · rw [List.getLast?_append]
    cases found : others.getLast? with
    | none => exact ⟨last, back, ending⟩
    | some other => exact ⟨other, rfl, trails.last other found⟩

theorem laid_cons (within : chunk.Within term) (beginning : chunk.begins = true)
    (beside : ∀ next ∈ chunks.head?, Beside doubled chunk next) (laid : Laid term doubled chunks) :
    Laid term doubled (chunk :: chunks) := by
  obtain ⟨last, found, ending⟩ := laid.last
  refine ⟨linked_cons within beside laid.toLinked, ⟨chunk, rfl, beginning⟩, ⟨last, ?_, ending⟩⟩
  rw [List.getLast?_cons, found]
  rfl

theorem linked_tail (linked : Linked term doubled (chunk :: chunks))
    (ended : ∀ last ∈ (chunk :: chunks).getLast?, last.ends = true) (awaiting : chunk.awaits = true) :
    Laid term doubled chunks := by
  obtain ⟨beside, chain⟩ := List.isChain_cons.1 linked.chain
  cases chunks with
  | nil =>
    rw [(ends_apart (ended chunk rfl)).1] at awaiting
    cases awaiting
  | cons next rest =>
    exact ⟨⟨fun other member => linked.within other (.tail _ member), chain⟩,
      ⟨next, rfl, (beside next rfl).filled awaiting⟩, ⟨_, rfl, ended _ rfl⟩⟩

theorem laid_ends (laid : Laid term doubled chunks) : ∀ last ∈ chunks.getLast?, last.ends = true := by
  obtain ⟨last, found, ending⟩ := laid.last
  exact fun other present => Option.mem_unique found present ▸ ending

theorem trails_nil : Trails term doubled [] :=
  ⟨⟨List.forall_mem_nil _, .nil⟩, (by simp), (by simp)⟩

theorem trails_append (trails : Trails term doubled chunks) (more : Trails term doubled others) :
    Trails term doubled (chunks ++ others) := by
  refine ⟨linked_append trails.toLinked more.toLinked ?_, ?_, ?_⟩
  · exact fun left found right next => beside_closing (trails.last left found) (more.first right next)
  · cases chunks with
    | nil => exact more.first
    | cons chunk rest => exact trails.first
  · rw [List.getLast?_append]
    cases found : others.getLast? with
    | none => exact trails.last
    | some last =>
      rintro _ ⟨⟩
      exact more.last last found

theorem trails_blank (laid : Laid term doubled chunks) : Trails term doubled (.blank :: chunks) := by
  obtain ⟨last, found, ending⟩ := laid.last
  refine ⟨linked_cons trivial (fun _ _ => beside_opening rfl rfl rfl) laid.toLinked, ?_, ?_⟩
  · rintro _ ⟨⟩
    rfl
  · rw [List.getLast?_cons, found]
    rintro _ ⟨⟩
    exact ending

theorem trails_comma (laid : Laid term doubled chunks) : Trails term doubled (comma :: .blank :: chunks) := by
  have spaced := trails_blank laid
  refine ⟨linked_cons (fun _ => trivial) ?_ spaced.toLinked, ?_, ?_⟩
  · rintro _ ⟨⟩
    exact ⟨.inr rfl, (by simp [awaits]), (by simp [isMinus])⟩
  · rintro _ ⟨⟩
    rfl
  · rw [List.getLast?_cons_cons]
    exact spaced.last

theorem trails_operator (op : Operator) (laid : Laid term doubled chunks) :
    Trails term doubled ([.blank, .token op.token, .blank] ++ chunks) := by
  have spaced := trails_blank laid
  have sound : op.token.Sound := by cases op <;> trivial
  have beside : Beside doubled (.token op.token) .blank := by
    cases op <;> exact ⟨.inr rfl, (by simp [awaits]), (by simp [dashed])⟩
  have opened : Linked term doubled (.token op.token :: .blank :: chunks) := by
    refine linked_cons (fun _ => sound) ?_ spaced.toLinked
    rintro _ ⟨⟩
    exact beside
  refine ⟨linked_cons trivial (fun _ _ => beside_opening rfl rfl rfl) opened, ?_, ?_⟩
  · rintro _ ⟨⟩
    rfl
  · exact spaced.last

theorem laid_words (keywords : List Keyword) (laid : Laid term doubled chunks) :
    Laid term doubled (words keywords ++ chunks) := by
  induction keywords with
  | nil => exact laid
  | cons word rest ih =>
    have single : Laid term doubled [.token (.keyword word)] := laid_single (fun _ => trivial) rfl rfl
    have spaced := laid_append single (trails_blank ih)
    rwa [List.singleton_append] at spaced

theorem trails_phrase (keywords : List Keyword) (laid : Laid term doubled chunks) :
    Trails term doubled (phrase keywords ++ chunks) :=
  trails_blank (laid_words keywords laid)

-- Behind a name or an opening parenthesis, and before a closing one.
theorem laid_closed (within : chunk.Within term) (beginning : chunk.begins = true)
    (beside : ∀ next ∈ (inner ++ [closing]).head?, Beside doubled chunk next) (linked : Linked term doubled inner)
    (free : ∀ last ∈ inner.getLast?, last.awaits = false) : Laid term doubled (chunk :: (inner ++ [closing])) := by
  have closed : Linked term doubled (inner ++ [closing]) := by
    refine linked_append linked (linked_single fun _ => trivial) ?_
    rintro left found _ ⟨⟩
    exact ⟨.inr rfl, (by simp [free left found]), (by simp [dashed])⟩
  refine ⟨linked_cons within beside closed, ⟨chunk, rfl, beginning⟩, ⟨closing, ?_, rfl⟩⟩
  rw [List.getLast?_cons, List.getLast?_concat]
  rfl

theorem laid_enclosed (linked : Linked term doubled inner) (free : ∀ last ∈ inner.getLast?, last.awaits = false) :
    Laid term doubled (enclosed inner) :=
  laid_closed (fun _ => trivial) rfl (fun _ _ => beside_opening rfl rfl rfl) linked free

theorem laid_free (laid : Laid term doubled inner) : ∀ last ∈ inner.getLast?, last.awaits = false :=
  fun last found => (ends_apart (laid_ends laid last found)).1

theorem laid_query (source : Term) (stages : List Term) (within : (Chunk.query source stages).Within term) :
    Laid term doubled (enclosed [.query source stages]) := by
  refine laid_enclosed (linked_single within) ?_
  rintro _ ⟨⟩
  rfl

theorem laid_parenthesized (needed : Bool) (laid : Laid term doubled inner) :
    Laid term doubled (parenthesized needed inner) := by
  cases needed with
  | true => exact laid_enclosed laid.toLinked (laid_free laid)
  | false => exact laid

theorem laid_separated (separator : List Chunk)
    (between : ∀ {chunks : List Chunk}, Laid term doubled chunks → Trails term doubled (separator ++ chunks))
    {entries : List (List Chunk)} (filled : entries ≠ []) (each : ∀ entry ∈ entries, Laid term doubled entry) :
    Laid term doubled (separated separator entries) := by
  induction entries with
  | nil => exact absurd rfl filled
  | cons first rest ih =>
    cases rest with
    | nil => exact each first (.head _)
    | cons second rest =>
      have others := ih (List.cons_ne_nil _ _) fun entry member => each entry (.tail _ member)
      rw [separated, List.append_assoc]
      · exact laid_append (each first (.head _)) (between others)
      · exact fun same => List.cons_ne_nil _ _ same

theorem laid_list {entries : List (List Chunk)} (each : ∀ entry ∈ entries, Laid term doubled entry) :
    Laid term doubled (enclosed (separated [comma, .blank] entries)) := by
  cases entries with
  | nil => exact laid_enclosed ⟨List.forall_mem_nil _, .nil⟩ (by simp [separated])
  | cons first rest =>
    have listed := laid_separated [comma, .blank] trails_comma (List.cons_ne_nil first rest) each
    exact laid_enclosed listed.toLinked (laid_free listed)

-- An argument or the keyword follows the parenthesis, so the list is not empty.
theorem laid_call {head : CallHead} (sound : term.WellFormed → (Token.ident head.name).Sound)
    {args : List (List Chunk)} (each : ∀ entry ∈ args, Laid term doubled entry) :
    Laid term doubled (called head args) := by
  have named : ∀ empty, (Chunk.call (Function.sqlName head.name) empty).Within term := fun _ formed =>
    Function.sql_name_sound (sound formed)
  have closed : ∀ {inner : List Chunk}, (∃ first ∈ inner.head?, first.begins = true) → Linked term doubled inner →
      (∀ last ∈ inner.getLast?, last.awaits = false) →
      Laid term doubled (.call (Function.sqlName head.name) false :: (inner ++ [closing])) := by
    rintro inner ⟨first, found, beginning⟩ linked free
    refine laid_closed (named false) rfl (fun next present => ?_) linked free
    cases Option.mem_unique (List.mem_head?_append_of_mem_head? found) present
    exact ⟨.inl rfl, fun _ => beginning, (by simp [isMinus])⟩
  have listed : args ≠ [] → Laid term doubled (separated [comma, .blank] args) := fun filled =>
    laid_separated [comma, .blank] trails_comma filled each
  unfold called
  by_cases empty : (args.isEmpty && !head.distinct) = true
  · rw [if_pos empty]
    exact laid_single (named true) rfl rfl
  · rw [if_neg empty]
    cases distinct : head.distinct with
    | false =>
      rw [distinct, Bool.not_false, Bool.and_true, List.isEmpty_iff] at empty
      exact closed (listed empty).first (listed empty).toLinked (laid_free (listed empty))
    | true =>
      cases args with
      | nil =>
        have single : Linked term doubled [.blank] := linked_single trivial
        refine closed ⟨_, rfl, rfl⟩ (linked_cons (fun _ => trivial) ?_ single) (by simp [words, separated, awaits])
        rintro _ ⟨⟩
        exact ⟨.inr rfl, (by simp [awaits]), (by simp [isMinus])⟩
      | cons first rest =>
        have spaced := laid_words [.distinct] (listed (List.cons_ne_nil _ _))
        exact closed spaced.first spaced.toLinked (laid_free spaced)

theorem laid_window_part (first : Keyword) {entries : List (List Chunk)}
    (each : ∀ entry ∈ entries, Laid term doubled entry) : ∀ entry ∈ windowPart first entries, Laid term doubled entry := by
  cases entries with
  | nil => exact List.forall_mem_nil _
  | cons entry entries =>
    have listed := laid_separated [comma, .blank] trails_comma (List.cons_ne_nil entry entries) each
    exact List.forall_mem_singleton.2 (laid_words _ listed)

theorem trails_window {partitionBy orderBy : List (List Chunk)}
    (partitions : ∀ entry ∈ partitionBy, Laid term doubled entry)
    (orders : ∀ entry ∈ orderBy, Laid term doubled entry) : Trails term doubled (window partitionBy orderBy) := by
  have each := List.forall_mem_append.2 ⟨laid_window_part .partition partitions, laid_window_part .order orders⟩
  refine trails_phrase _ ?_
  by_cases empty : windowPart .partition partitionBy ++ windowPart .order orderBy = []
  · rw [empty]
    exact laid_enclosed ⟨List.forall_mem_nil _, .nil⟩ (by simp [separated])
  · have framed := laid_separated [.blank] trails_blank empty each
    exact laid_enclosed framed.toLinked (laid_free framed)

theorem laid_compared {left right : Term} (first : left ∈ term.parts) (second : right ∈ term.parts)
    (laid : Laid term doubled chunks) : Laid term doubled (compared left right ++ chunks) := by
  have beside : ∀ (number : Bool) {operand : Term} {chunks : List Chunk}, operand ∈ term.parts →
      Laid term doubled chunks → Laid term doubled (beside number operand ++ chunks) := by
    intro number operand chunks member laid
    cases operand with
    | param span name =>
      cases number with
      | true =>
        obtain ⟨first, found, beginning⟩ := laid.first
        refine laid_cons (fun formed => Term.part_well_formed _ _ formed member) rfl (fun next present => ?_) laid
        cases Option.mem_unique found present
        exact ⟨.inl rfl, fun _ => beginning, (by simp [isMinus])⟩
      | false => exact laid
    | _ => exact laid
  rw [compared, List.append_assoc]
  exact beside _ first (beside _ second laid)

end Chunk

namespace Term

open Chunk

theorem trails_option {term : Term} {doubled : Prop} (introduction : List Chunk)
    (introduced : ∀ {chunks : List Chunk}, Laid term doubled chunks → Trails term doubled (introduction ++ chunks))
    (given : Option Term) (each : ∀ part, given = some part → Laid term doubled part.chunks) :
    Trails term doubled (optionChunks introduction given) := by
  cases given with
  | none => exact trails_nil
  | some part => exact introduced (each part rfl)

theorem trails_branches {term : Term} {doubled : Prop} (branches : List (Term × Term))
    (each : ∀ branch ∈ branches, Laid term doubled branch.1.chunks ∧ Laid term doubled branch.2.chunks) :
    Trails term doubled (branchChunks branches) := by
  induction branches with
  | nil => exact trails_nil
  | cons branch rest ih =>
    obtain ⟨condition, value⟩ := branch
    have chosen := trails_append (trails_phrase [.when] (each _ (.head _)).1) (trails_phrase [.then] (each _ (.head _)).2)
    rw [branchChunks, List.append_assoc (phrase [.when] ++ condition.chunks)]
    exact trails_append chosen (ih fun other member => each other (.tail _ member))

theorem entries_laid {term : Term} {doubled : Prop} {items : List Term}
    (each : ∀ entry ∈ listChunks items, Laid term doubled entry) :
    Laid term doubled (entries items (listChunks items)) := by
  unfold entries
  cases lone : lonePipe items with
  | true =>
    cases items with
    | nil => cases lone
    | cons item rest => exact laid_separated [comma, .blank] trails_comma (List.cons_ne_nil _ _) each
  | false => exact laid_list each

-- Of the terms that a minus can stand in front of, only a minus begins with a dash.
theorem primary_undashed {term : Term} (primary : term.level = 8) :
    ∀ chunk ∈ term.chunks.head?, chunk.dashed = false := by
  have named : ∀ (head : CallHead) (args : List (List Chunk)), ∃ empty rest,
      called head args = .call (Function.sqlName head.name) empty :: rest := by
    intro head args
    unfold called
    split
    · exact ⟨true, [], rfl⟩
    · exact ⟨false, _, rfl⟩
  intro chunk found
  cases term with
  | wildcard span table =>
    cases table <;>
    · cases found
      rfl
  | literal span value =>
    cases value <;>
    · cases found
      rfl
  | call span head args =>
    obtain ⟨empty, rest, same⟩ := named head (listChunks args)
    rw [chunks, same] at found
    cases found
    rfl
  | windowed span head args partitionBy orderBy =>
    obtain ⟨empty, rest, same⟩ := named head (listChunks args)
    rw [chunks, same] at found
    cases found
    rfl
  | unary span op operand => cases op <;> cases primary
  | binary span op left right => cases op <;> cases primary
  | isNull | inList | like | aliased | ordered | named => cases primary
  | _ =>
    cases found
    rfl

theorem operand_undashed {doubled : Prop} {term : Term} (formed : term.WellFormed)
    (dashes : ∀ outer inner operand, (Term.unary outer .negate (.unary inner .negate operand)).Within term → doubled)
    {span : Span} {operand : Term} (within : (Term.unary span .negate operand).Within term) :
    ∀ chunk ∈ (Chunk.parenthesized operand.isBinary operand.chunks).head?, chunk.dashed = true → doubled := by
  have tight := (within_well_formed _ term within formed).1
  have primary : operand.level = 8 → operand.isBinary = false →
      ∀ chunk ∈ (Chunk.parenthesized operand.isBinary operand.chunks).head?, chunk.dashed = true → doubled := by
    intro level single chunk found dash
    rw [single] at found
    rw [primary_undashed level chunk found] at dash
    cases dash
  cases operand with
  | unary inner op second =>
    cases op with
    | negate => exact fun _ _ _ => dashes span inner second within
    | not => exact absurd tight (by decide : ¬7 ≤ 3)
  | binary inner op left right =>
    rw [level] at tight
    cases op <;> exact absurd tight (by decide)
  | isNull | inList | like => exact absurd tight (by decide : ¬7 ≤ 4)
  | aliased | ordered | named => exact absurd tight (by decide : ¬7 ≤ 0)
  | _ => exact primary rfl rfl

theorem chunks_laid {doubled : Prop} (term : Term)
    (undashed : ∀ {span operand}, (Term.unary span .negate operand).Within term →
      ∀ chunk ∈ (Chunk.parenthesized operand.isBinary operand.chunks).head?, chunk.dashed = true → doubled) :
    Laid term doubled term.chunks := by
  induction term using parts_induction with
  | step term ih =>
    have inner : ∀ part ∈ term.parts, Laid term doubled part.chunks := fun part member =>
      laid_deeper member (ih part member fun within => undashed (.deeper _ part term member within))
    have listed : ∀ terms : List Term, (∀ part ∈ terms, Laid term doubled part.chunks) →
        ∀ entry ∈ listChunks terms, Laid term doubled entry := by
      intro terms each
      rw [list_chunks]
      exact List.forall_mem_map.2 each
    cases term with
    | ident | qualified | param => exact laid_single (fun formed => formed) rfl rfl
    | wildcard span table =>
      cases table with
      | none => exact laid_single (fun _ => trivial) rfl rfl
      | some table => exact laid_single (fun formed => formed) rfl rfl
    | literal span value =>
      cases value with
      | int | decimal => exact laid_single (fun formed => formed) rfl rfl
      | str | null => exact laid_single (fun _ => trivial) rfl rfl
    | call span head args => exact laid_call And.left (listed args inner)
    | windowed span head args partitionBy orderBy =>
      obtain ⟨ofArgs, ofPartition, ofOrder⟩ := windowed_parts inner
      exact laid_append (laid_call And.left (listed args ofArgs))
        (trails_window (listed partitionBy ofPartition) (listed orderBy ofOrder))
    | cases span operand branches otherwise =>
      obtain ⟨ofOperand, ofBranches, ofOtherwise⟩ := cases_parts inner
      have tested := trails_option [.blank] trails_blank operand ofOperand
      have chosen := trails_branches branches ofBranches
      have left := trails_option (phrase [.else]) (trails_phrase [.else]) otherwise ofOtherwise
      have begun : Laid (.cases span operand branches otherwise) doubled [.token (.keyword .case)] :=
        laid_single (fun _ => trivial) rfl rfl
      have ended : Trails (.cases span operand branches otherwise) doubled [.blank, .token (.keyword .end)] :=
        trails_blank (laid_single (fun _ => trivial) rfl rfl)
      exact laid_append begun (trails_append (trails_append (trails_append tested chosen) left) ended)
    | binary span op left right =>
      have first := laid_parenthesized (needsParens op left false) (inner left (.head _))
      have second := laid_parenthesized (needsParens op right true) (inner right (.tail _ (.head _)))
      rw [chunks, List.append_assoc]
      refine laid_append ?_ (trails_operator op second)
      split
      · exact laid_compared (.head _) (.tail _ (.head _)) first
      · exact first
    | unary span op operand =>
      have enclosed := laid_parenthesized operand.isBinary (inner operand (.head _))
      cases op with
      | negate =>
        refine laid_cons (fun _ => trivial) rfl (fun next present => ?_) enclosed
        exact ⟨.inl rfl, (by simp [awaits]), fun _ => undashed (.self _) next present⟩
      | not => exact laid_words [.not] enclosed
    | isNull span operand negated =>
      rw [chunks, List.append_assoc]
      exact laid_append (inner operand (.head _)) (trails_phrase _ (laid_single (fun _ => trivial) rfl rfl))
    | inList span operand items negated =>
      rw [chunks, List.append_assoc]
      have items := entries_laid (listed items fun item member => inner item (.tail _ member))
      exact laid_append (inner operand (.head _)) (trails_phrase _ items)
    | like span operand pattern negated =>
      rw [chunks, List.append_assoc]
      exact laid_append (inner operand (.head _)) (trails_phrase _ (inner pattern (.tail _ (.head _))))
    | «exists» span source stages =>
      exact laid_words [.exists] (laid_query source stages ⟨_, .self _, rfl, rfl⟩)
    | pipe span source stages => exact laid_query source stages ⟨_, .self _, rfl, rfl⟩
    | paren span inside =>
      have laid := inner inside (.head _)
      exact laid_enclosed laid.toLinked (laid_free laid)
    | aliased span inside label =>
      rw [chunks, List.append_assoc]
      exact laid_append (inner inside (.head _)) (trails_phrase _ (laid_single (fun formed => formed.2.2) rfl rfl))
    | ordered span inside direction =>
      exact laid_append (inner inside (.head _)) (trails_blank (laid_single (fun _ => trivial) rfl rfl))
    | lambda | named => exact laid_single ⟨_, .self _, rfl⟩ rfl rfl

theorem chunks_spaced (term : Term) : Laid term True term.chunks :=
  chunks_laid term fun _ _ _ _ => trivial

theorem compared_linked {doubled : Prop} {span : Span} {op : Operator} {left right : Term}
    (comparison : op.isComparison = true)
    (laid : Laid (binary span op left right) doubled (binary span op left right).chunks) :
    Linked (binary span op left right) doubled (compared left right) := by
  have linked := laid.toLinked
  rw [chunks, if_pos comparison, List.append_assoc, List.append_assoc] at linked
  exact (linked_parts linked).1

theorem entries_linked {doubled : Prop} {span : Span} {operand : Term} {items : List Term} {negated : Bool}
    (laid : Laid (inList span operand items negated) doubled (inList span operand items negated).chunks) :
    Linked (inList span operand items negated) doubled (entries items (listChunks items)) := by
  have linked := laid.toLinked
  rw [chunks] at linked
  exact (linked_parts linked).2

end Term

end PipeSql

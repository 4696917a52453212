import PipeSql.Proofs.Pipeline.Chunks

set_option autoImplicit false

namespace PipeSql

namespace Chunk

-- A change of dotted names, literals and queries, which keeps what stands between them.
structure Steady (change : Chunk → Chunk) : Prop where
  blank : change .blank = .blank
  keyword : ∀ word, change (.token (.keyword word)) = .token (.keyword word)
  symbol : ∀ mark, change (.token (.symbol mark)) = .token (.symbol mark)
  ident : ∀ name, change (.token (.ident name)) = .token (.ident name)
  call : ∀ name empty, change (.call name empty) = .call name empty

variable {change : Chunk → Chunk} (steady : Steady change)
include steady

theorem words_map (keywords : List Keyword) : (words keywords).map change = words keywords := by
  simp only [words, List.map_flatMap, List.map_cons, List.map_nil, steady.keyword, steady.blank]

theorem phrase_map (keywords : List Keyword) : (phrase keywords).map change = phrase keywords := by
  rw [phrase, List.map_cons, steady.blank, words_map steady]

theorem enclosed_map (inner : List Chunk) : (enclosed inner).map change = enclosed (inner.map change) := by
  simp only [enclosed, List.map_cons, List.map_append, List.map_nil, steady.symbol]

theorem parenthesized_map (needed : Bool) (inner : List Chunk) :
    (parenthesized needed inner).map change = parenthesized needed (inner.map change) := by
  cases needed with
  | true => exact enclosed_map steady inner
  | false => rfl

omit steady in
theorem separated_map (separator : List Chunk) (fixed : separator.map change = separator) (entries : List (List Chunk)) :
    (separated separator entries).map change = separated separator (entries.map (List.map change)) := by
  induction entries with
  | nil => rfl
  | cons first rest ih =>
    cases rest with
    | nil => rfl
    | cons second rest =>
      simp only [List.map_cons] at ih ⊢
      simp only [separated, List.map_append, fixed, ih]

theorem commaed_map (entries : List (List Chunk)) :
    (separated [comma, .blank] entries).map change = separated [comma, .blank] (entries.map (List.map change)) :=
  separated_map _ (by simp only [List.map_cons, List.map_nil, steady.symbol, steady.blank]) entries

theorem call_map (head : CallHead) (args : List (List Chunk)) :
    (called head args).map change = called head (args.map (List.map change)) := by
  unfold called
  rw [List.isEmpty_map]
  split
  · rw [List.map_cons, steady.call, List.map_nil]
  · have distinct : (if head.distinct then words [.distinct] else []).map change =
        if head.distinct then words [.distinct] else [] := by
      cases head.distinct with
      | true => exact words_map steady _
      | false => rfl
    simp only [List.map_cons, List.map_append, List.map_nil, steady.call, steady.symbol, distinct, commaed_map steady]

theorem window_map (partitionBy orderBy : List (List Chunk)) :
    (window partitionBy orderBy).map change =
      window (partitionBy.map (List.map change)) (orderBy.map (List.map change)) := by
  have part : ∀ (first : Keyword) (entries : List (List Chunk)),
      (windowPart first entries).map (List.map change) = windowPart first (entries.map (List.map change)) := by
    intro first entries
    unfold windowPart
    rw [List.isEmpty_map]
    split
    · rfl
    · simp only [List.map_cons, List.map_nil, List.map_append, words_map steady, commaed_map steady]
  have spaced : List.map change [.blank] = [.blank] := by rw [List.map_cons, steady.blank, List.map_nil]
  rw [window, List.map_append, phrase_map steady, enclosed_map steady, separated_map _ spaced, List.map_append, part, part,
    window]

end Chunk

namespace Term

open Chunk

-- The text is not made of the texts of other terms.
def isFlat : Term → Bool
  | .ident .. | .qualified .. | .wildcard .. | .param .. | .literal .. | .lambda .. | .exists .. | .pipe ..
  | .named .. => true
  | _ => false

def onParts (alter : Term → Term) : Term → Term
  | .call span head args => .call span head (args.map alter)
  | .windowed span head args partitionBy orderBy =>
    .windowed span head (args.map alter) (partitionBy.map alter) (orderBy.map alter)
  | .cases span operand branches otherwise =>
    .cases span (operand.map alter) (branches.map fun branch => (alter branch.1, alter branch.2)) (otherwise.map alter)
  | .binary span op left right => .binary span op (alter left) (alter right)
  | .unary span op operand => .unary span op (alter operand)
  | .isNull span operand negated => .isNull span (alter operand) negated
  | .inList span operand items negated => .inList span (alter operand) (items.map alter) negated
  | .like span operand pattern negated => .like span (alter operand) (alter pattern) negated
  | .paren span inner => .paren span (alter inner)
  | .aliased span inner label => .aliased span (alter inner) label
  | .ordered span inner direction => .ordered span (alter inner) direction
  | flat => flat

-- A change of terms that shows in the text as a change of chunks.
structure Alters (alter : Term → Term) (change : Chunk → Chunk) : Prop extends Steady change where
  flat : ∀ term, term.isFlat = true → (alter term).chunks = term.chunks.map change
  deep : ∀ term, term.isFlat = false → (alter term).chunks = (term.onParts alter).chunks
  binary : ∀ term, (alter term).isBinary = term.isBinary
  parens : ∀ op term onRight, needsParens op (alter term) onRight = needsParens op term onRight
  number : ∀ term, (alter term).isNumber = term.isNumber
  besides : ∀ number term, beside number (alter term) = (beside number term).map change
  lone : ∀ term, lonePipe [alter term] = lonePipe [term]

variable {alter : Term → Term} {change : Chunk → Chunk}

theorem list_altered {terms : List Term} (each : ∀ term ∈ terms, (alter term).chunks = term.chunks.map change) :
    listChunks (terms.map alter) = (listChunks terms).map (List.map change) := by
  rw [list_chunks, list_chunks, List.map_map, List.map_map]
  exact List.map_congr_left each

theorem option_altered {introduction : List Chunk} (fixed : introduction.map change = introduction) (term : Option Term)
    (each : ∀ inner, term = some inner → (alter inner).chunks = inner.chunks.map change) :
    optionChunks introduction (term.map alter) = (optionChunks introduction term).map change := by
  cases term with
  | none => rfl
  | some term => rw [Option.map_some, optionChunks, optionChunks, List.map_append, fixed, each term rfl]

theorem branches_altered (steady : Steady change) (branches : List (Term × Term))
    (each : ∀ branch ∈ branches, (alter branch.1).chunks = branch.1.chunks.map change ∧
      (alter branch.2).chunks = branch.2.chunks.map change) :
    branchChunks (branches.map fun branch => (alter branch.1, alter branch.2)) = (branchChunks branches).map change := by
  induction branches with
  | nil => rfl
  | cons branch rest ih =>
    obtain ⟨condition, value⟩ := branch
    simp only [List.map_cons, branchChunks, List.map_append, phrase_map steady, (each _ (.head _)).1, (each _ (.head _)).2,
      ih fun other member => each other (.tail _ member)]

theorem entries_altered (alters : Alters alter change) (items : List Term)
    (each : ∀ item ∈ items, (alter item).chunks = item.chunks.map change) :
    entries (items.map alter) (listChunks (items.map alter)) = (entries items (listChunks items)).map change := by
  have lone : lonePipe (items.map alter) = lonePipe items := by
    rcases items with _ | ⟨only, _ | ⟨second, rest⟩⟩
    · rfl
    · exact alters.lone only
    · simp [lonePipe]
  rw [entries, entries, lone, list_altered each, parenthesized_map alters.toSteady, commaed_map alters.toSteady]

theorem compared_altered (alters : Alters alter change) (left right : Term) :
    compared (alter left) (alter right) = (compared left right).map change := by
  rw [compared, compared, List.map_append, alters.number, alters.number, alters.besides, alters.besides]

theorem on_parts_chunks (alters : Alters alter change) {term : Term} (deep : term.isFlat = false)
    (each : ∀ part ∈ term.parts, (alter part).chunks = part.chunks.map change) :
    (term.onParts alter).chunks = term.chunks.map change := by
  have steady := alters.toSteady
  cases term with
  | ident | qualified | wildcard | param | literal | lambda | «exists» | pipe | named => cases deep
  | call span head args =>
    rw [parts] at each
    rw [onParts, chunks, chunks, call_map steady, list_altered each]
  | windowed span head args partitionBy orderBy =>
    obtain ⟨ofArgs, ofPartition, ofOrder⟩ := windowed_parts each
    rw [onParts, chunks, chunks, List.map_append, call_map steady, window_map steady, list_altered ofArgs,
      list_altered ofPartition, list_altered ofOrder]
  | cases span operand branches otherwise =>
    have spaced : List.map change [.blank] = [.blank] := by rw [List.map_cons, steady.blank, List.map_nil]
    obtain ⟨ofOperand, ofBranches, ofOtherwise⟩ := cases_parts each
    rw [onParts, chunks, chunks, option_altered spaced operand ofOperand, branches_altered steady branches ofBranches,
      option_altered (phrase_map steady _) otherwise ofOtherwise]
    simp only [List.map_cons, List.map_append, List.map_nil, steady.keyword, steady.blank]
  | binary span op left right =>
    have operator : change (.token op.token) = .token op.token := by
      cases op <;> first | exact steady.symbol _ | exact steady.keyword _
    simp only [onParts, chunks, List.map_append, parenthesized_map steady, alters.parens, compared_altered alters,
      each left (.head _), each right (.tail _ (.head _)), List.map_cons, List.map_nil, steady.blank, operator]
    cases op.isComparison <;> rfl
  | unary span op operand =>
    have inner := each operand (.head _)
    cases op with
    | negate => simp only [onParts, chunks, alters.binary, inner, List.map_cons, parenthesized_map steady, steady.symbol]
    | not => simp only [onParts, chunks, alters.binary, inner, List.map_append, parenthesized_map steady, words_map steady]
  | isNull span operand negated =>
    simp only [onParts, chunks, each operand (.head _), List.map_append, phrase_map steady, List.map_cons, List.map_nil,
      steady.keyword]
  | inList span operand items negated =>
    simp only [onParts, chunks, each operand (.head _), List.map_append, phrase_map steady,
      entries_altered alters items fun item member => each item (.tail _ member)]
  | like span operand pattern negated =>
    simp only [onParts, chunks, each operand (.head _), each pattern (.tail _ (.head _)), List.map_append, phrase_map steady]
  | paren span inner => simp only [onParts, chunks, each inner (.head _), enclosed_map steady]
  | aliased span inner label =>
    simp only [onParts, chunks, each inner (.head _), List.map_append, phrase_map steady, List.map_cons, List.map_nil,
      steady.ident]
  | ordered span inner direction =>
    simp only [onParts, chunks, each inner (.head _), List.map_append, List.map_cons, List.map_nil, steady.blank,
      steady.keyword]

theorem chunks_altered (alters : Alters alter change) (term : Term) :
    (alter term).chunks = term.chunks.map change := by
  induction term using parts_induction with
  | step term ih =>
    cases flat : term.isFlat with
    | true => exact alters.flat term flat
    | false => exact (alters.deep term flat).trans (on_parts_chunks alters flat ih)

end Term

end PipeSql

import Mathlib.Data.List.SplitBy
import PipeSql.Proofs.Formula.Operands
import PipeSql.Proofs.Statement.Trees

set_option autoImplicit false

namespace PipeSql.WhereText

-- A word is cut where an operator begins or ends, unless it is quoted.
def Mark.cut : Mark → List Mark
  | .word text =>
    if text.toList.head? = some '\'' then [.word text]
    else (text.toList.splitBy fun c d => isSign c == isSign d).map fun chars => .word (String.ofList chars)
  | mark => [mark]

def pieces (chars : List Char) : List Mark :=
  (marks false [] chars).flatMap Mark.cut

def operators : List String :=
  "AND" :: "OR" :: "IS" :: comparators

-- An operand begins here.
def begins : List Mark → Bool
  | .opening :: _ => true
  | .word text :: _ => !operators.contains text
  | _ => false

-- A word at the place of an operand. NOT is a name where none follows it.
def Atom.ofOperand (text : String) (next : List Mark) : Atom :=
  if text = "NOT" && begins next then .negation else .tree (.operand text)

-- A word behind an operand.
def Atom.ofOperator (text : String) : Atom :=
  if text = "AND" then .and
  else if text = "OR" then .or
  else if operators.contains text then .comparator text
  else .tree (.operand text)

def extend (frame : List Atom) (text : String) (next : List Mark) : List Atom :=
  match frame.getLast? with
  | some (.tree _) => frame ++ [.ofOperator text]
  | some (.comparator operator) =>
    if operator = "IS" && text = "NOT" then frame.dropLast ++ [.comparator "IS NOT"]
    else frame ++ [.ofOperand text next]
  | _ => frame ++ [.ofOperand text next]

-- Reads on in a list, inside of others.
def read (stack : List (List Atom)) (frame : List Atom) : List Mark → Option Tree
  | [] => if stack.isEmpty then disjunction frame else none
  | .opening :: rest => read (frame :: stack) [] rest
  | .closing :: rest =>
    match stack with
    | [] => none
    | outer :: stack => (disjunction frame).bind fun tree => read stack (outer ++ [.tree tree]) rest
  | .word text :: rest => read stack (extend frame text rest) rest

-- The tree of a text, if it can be read.
def tree? (text : String) : Option Tree :=
  read [] [] (pieces text.toList)

example : tree? "a = 1 OR NOT (b = c = 2) AND d IS NOT NULL" = some (.or (.compare "=" (.operand "a") (.operand "1"))
    (.and (.not (.compare "=" (.compare "=" (.operand "b") (.operand "c")) (.operand "2")))
      (.compare "IS NOT" (.operand "d") (.operand "NULL")))) := by decide +kernel

-- The text is one piece, whatever follows it.
def IsPiece (text : String) : Prop :=
  ∀ rest, Ends rest → pieces (text.toList ++ rest) = .word text :: pieces rest

theorem word_piece {text : String} (word : IsWord text) (whole : Mark.cut (.word text) = [.word text]) :
    IsPiece text := by
  intro rest ends
  rw [pieces, word rest ends, List.flatMap_cons, whole]
  rfl

theorem operand_piece {text : String} (operand : IsOperand text) : IsPiece text := by
  apply word_piece operand.word
  unfold Mark.cut
  rcases operand.whole with quoted | signless
  · exact if_pos quoted
  · have filled : text.toList ≠ [] := by
      intro empty
      have word := operand.word [] ends_nil
      rw [empty] at word
      cases word
    have uncut : text.toList.splitBy (fun c d => isSign c == isSign d) = [text.toList] := by
      apply List.splitBy_of_isChain filled
      apply List.Pairwise.isChain
      apply List.pairwise_of_forall_mem_list
      intro c first d second
      rw [signless c first, signless d second]
      rfl
    dsimp only
    split
    · rfl
    · rw [uncut, List.map_singleton, String.ofList_toList]

theorem operator_piece {operator : String} (known : operator ∈ operators) : IsPiece operator := by
  have every : operators.all (fun word => word != "" && word.toList.all isBare &&
      decide (Mark.cut (.word word) = [.word word])) = true := by decide +kernel
  have this := List.all_eq_true.1 every operator known
  simp only [Bool.and_eq_true, bne_iff_ne, decide_eq_true_eq] at this
  exact word_piece (bare_word this.1.1 this.1.2) this.2

theorem keyword_piece {keyword : String} (known : keyword = "NOT" ∨ keyword = "NULL") : IsPiece keyword := by
  rcases known with rfl | rfl
  all_goals exact word_piece (bare_word (by decide) (by decide)) (by decide +kernel)

theorem pieces_space (rest : List Char) : pieces (' ' :: rest) = pieces rest :=
  rfl

theorem pieces_opening (rest : List Char) : pieces ('(' :: rest) = .opening :: pieces rest :=
  rfl

theorem pieces_closing (rest : List Char) : pieces (')' :: rest) = .closing :: pieces rest :=
  rfl

-- What follows a text neither continues its last word nor begins with an operand.
structure Follows (rest : List Char) : Prop where
  ends : Ends rest
  behind : begins (pieces rest) = false

theorem follows_nil : Follows [] :=
  ⟨ends_nil, rfl⟩

theorem follows_closing (rest : List Char) : Follows (')' :: rest) :=
  ⟨ends_closing rest, rfl⟩

theorem operator_pieces {operator : String} (known : operator ∈ operators) (rest : List Char) :
    pieces (' ' :: (operator.toList ++ ' ' :: rest)) = .word operator :: pieces rest := by
  rw [pieces_space, operator_piece known _ (ends_space rest), pieces_space]

theorem follows_operator {operator : String} (known : operator ∈ operators) (rest : List Char) :
    Follows (' ' :: (operator.toList ++ ' ' :: rest)) := by
  refine ⟨ends_space _, ?_⟩
  rw [operator_pieces known, begins, List.contains_iff_mem.2 known]
  rfl

-- An operand must follow, and NOT in front of it is no part of IS NOT.
def awaits (frame : List Atom) : Bool :=
  match frame.getLast? with
  | some (.tree _) => false
  | some (.comparator operator) => operator != "IS"
  | _ => true

theorem extend_awaiting {frame : List Atom} (awaiting : awaits frame = true) (text : String) (next : List Mark) :
    extend frame text next = frame ++ [.ofOperand text next] := by
  unfold awaits at awaiting
  unfold extend
  cases last : frame.getLast? with
  | none => rfl
  | some atom =>
    rw [last] at awaiting
    cases atom with
    | tree tree => cases awaiting
    | comparator operator =>
      have other : operator ≠ "IS" := by simpa using awaiting
      simp [other]
    | negation | and | or => rfl

theorem extend_phrase {atoms : List Atom} (phrase : Phrase atoms) (frame : List Atom) (text : String)
    (next : List Mark) : extend (frame ++ atoms) text next = frame ++ atoms ++ [.ofOperator text] := by
  obtain ⟨tree, last⟩ := phrase_last phrase
  have whole : (frame ++ atoms).getLast? = some (.tree tree) := by
    rw [List.getLast?_append, last]
    rfl
  rw [extend, whole]

theorem operator_cases {operator : String} (known : operator ∈ operators) :
    Atom.ofOperator operator = .and ∨ Atom.ofOperator operator = .or ∨
      Atom.ofOperator operator = .comparator operator := by
  unfold Atom.ofOperator
  split
  · exact .inl rfl
  · split
    · exact .inr (.inl rfl)
    · exact .inr (.inr (if_pos (List.contains_iff_mem.2 known)))

-- The text consists of these atoms, wherever an operand may stand.
structure MadeOf (text : String) (atoms : List Atom) : Prop where
  phrase : Phrase atoms
  reads : ∀ stack frame rest, awaits frame = true → Follows rest →
    read stack frame (pieces (text.toList ++ rest)) = read stack (frame ++ atoms) (pieces rest)

variable {text first second : String} {atoms left right : List Atom} {tree : Tree}

theorem tree_made (made : MadeOf text atoms) : tree? text = disjunction atoms := by
  have whole := made.reads [] [] [] rfl follows_nil
  rw [List.append_nil] at whole
  exact whole

theorem made_operand (operand : IsOperand text) : MadeOf text [.tree (.operand text)] where
  phrase := .tree _
  reads stack frame rest awaiting follows := by
    have name : Atom.ofOperand text (pieces rest) = .tree (.operand text) := by
      simp [Atom.ofOperand, follows.behind]
    rw [operand_piece operand rest follows.ends, read, extend_awaiting awaiting, name]

theorem made_joined {operator : String} (known : operator ∈ operators) (binary : operator ≠ "IS")
    (begun : MadeOf first left) (ended : MadeOf second right) :
    MadeOf (first ++ " " ++ operator ++ " " ++ second) (left ++ .ofOperator operator :: right) where
  phrase := by
    refine phrase_joined ?_ begun.phrase ended.phrase
    rcases operator_cases known with same | same | same <;> rw [same] <;> rfl
  reads stack frame rest awaiting follows := by
    have chars : (first ++ " " ++ operator ++ " " ++ second).toList ++ rest =
        first.toList ++ ' ' :: (operator.toList ++ ' ' :: (second.toList ++ rest)) := by
      simp
    have ready : awaits (frame ++ left ++ [.ofOperator operator]) = true := by
      rw [awaits, List.getLast?_concat]
      rcases operator_cases known with same | same | same <;> rw [same]
      exact bne_iff_ne.2 binary
    rw [chars, begun.reads stack frame _ awaiting (follows_operator known _), operator_pieces known, read,
      extend_phrase begun.phrase, ended.reads stack _ rest ready follows]
    simp

theorem made_enclosed (made : MadeOf text atoms) (known : disjunction atoms = some tree) :
    MadeOf ("(" ++ text ++ ")") [.tree tree] where
  phrase := .tree tree
  reads stack frame rest awaiting follows := by
    rw [enclosed_chars, pieces_opening, read, made.reads _ [] _ rfl (follows_closing rest), pieces_closing, read]
    simp [known]

theorem made_negated (made : MadeOf text atoms) (known : disjunction atoms = some tree) :
    MadeOf ("NOT (" ++ text ++ ")") [.negation, .tree tree] where
  phrase := .negated (.tree tree)
  reads stack frame rest awaiting follows := by
    have chars : ("NOT (" ++ text ++ ")").toList ++ rest =
        "NOT".toList ++ ' ' :: (("(" ++ text ++ ")").toList ++ rest) := by
      simp
    have ready : awaits (frame ++ [.negation]) = true := by
      rw [awaits, List.getLast?_concat]
    have enclosed := (made_enclosed made known).reads stack _ rest ready follows
    rw [chars, keyword_piece (.inl rfl) _ (ends_space _), read, extend_awaiting awaiting, pieces_space]
    have negation : Atom.ofOperand "NOT" (pieces (("(" ++ text ++ ")").toList ++ rest)) = .negation := by
      rw [enclosed_chars, pieces_opening]
      rfl
    rw [negation, enclosed, List.append_assoc]
    rfl

-- A test for NULL is the comparison with it by IS or IS NOT.
theorem made_null_test {test operator : String}
    (known : test = " IS NULL" ∧ operator = "IS" ∨ test = " IS NOT NULL" ∧ operator = "IS NOT")
    (begun : MadeOf first left) : MadeOf (first ++ test) (left ++ [.comparator operator, .tree (.operand "NULL")]) where
  phrase := phrase_joined rfl begun.phrase (.tree _)
  reads stack frame rest awaiting follows := by
    have null := keyword_piece (.inr rfl) rest follows.ends
    have tested : ∀ before operator next, extend (before ++ [.comparator operator]) "NULL" next =
        before ++ [.comparator operator] ++ [.tree (.operand "NULL")] := by
      intro before operator next
      rw [extend, List.getLast?_concat]
      simp [Atom.ofOperand]
    have denied : ∀ before next, extend (before ++ [.comparator "IS"]) "NOT" next =
        before ++ [.comparator "IS NOT"] := by
      intro before next
      rw [extend, List.getLast?_concat]
      simp
    have keyword : Atom.ofOperator "IS" = .comparator "IS" := rfl
    rcases known with ⟨rfl, rfl⟩ | ⟨rfl, rfl⟩
    · have chars : (first ++ " IS NULL").toList ++ rest =
          first.toList ++ ' ' :: ("IS".toList ++ ' ' :: ("NULL".toList ++ rest)) := by
        simp
      rw [chars, begun.reads stack frame _ awaiting (follows_operator (by decide) _), operator_pieces (by decide), read,
        extend_phrase begun.phrase, keyword, null, read, tested]
      simp
    · have chars : (first ++ " IS NOT NULL").toList ++ rest =
          first.toList ++ ' ' :: ("IS".toList ++ ' ' :: ("NOT".toList ++ ' ' :: ("NULL".toList ++ rest))) := by
        simp
      rw [chars, begun.reads stack frame _ awaiting (follows_operator (by decide) _), operator_pieces (by decide), read,
        extend_phrase begun.phrase, keyword, keyword_piece (.inl rfl) _ (ends_space _), read, denied, pieces_space,
        null, read, tested]
      simp

-- An operator is one without spaces around it too.
theorem made_unspaced {operator : String} (word : IsWord text)
    (cut : Mark.cut (.word text) = [.word first, .word operator, .word second]) (begins : IsPiece first)
    (middle : IsPiece operator) (ends : IsPiece second)
    (spaced : MadeOf (first ++ " " ++ operator ++ " " ++ second) atoms) : MadeOf text atoms where
  phrase := spaced.phrase
  reads stack frame rest awaiting follows := by
    have chars : (first ++ " " ++ operator ++ " " ++ second).toList ++ rest =
        first.toList ++ ' ' :: (operator.toList ++ ' ' :: (second.toList ++ rest)) := by
      simp
    have whole := spaced.reads stack frame rest awaiting follows
    rw [chars, begins _ (ends_space _), pieces_space, middle _ (ends_space _), pieces_space,
      ends _ follows.ends] at whole
    rw [pieces, word rest follows.ends, List.flatMap_cons, cut]
    exact whole

end PipeSql.WhereText

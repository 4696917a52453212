import PipeSql.Proofs.Statement.Precedence

set_option autoImplicit false

namespace PipeSql.WhereText

inductive Tree where
  | operand (text : String)
  | compare (operator : String) (left right : Tree)
  | not (inner : Tree)
  | and (left right : Tree)
  | or (left right : Tree)
deriving DecidableEq, Repr

-- What a flat list is made of. A pair of parentheses is the tree of what it encloses.
inductive Atom where
  | tree (tree : Tree)
  | negation
  | comparator (operator : String)
  | and
  | or
deriving DecidableEq, Repr

mutual

-- The tree of a list without AND and OR.
def comparison : List Atom → Option Tree
  | .negation :: rest => (comparison rest).map .not
  | .tree first :: rest => chain first rest
  | _ => none

-- The comparisons that follow a tree. NOT behind an operator takes the rest of them.
def chain (left : Tree) : List Atom → Option Tree
  | [] => some left
  | .comparator operator :: .tree right :: rest => chain (.compare operator left right) rest
  | .comparator operator :: .negation :: rest => (comparison rest).map fun inner => .compare operator left (.not inner)
  | _ => none

end

-- The parts that follow a tree, joined to it from the left.
def joined (join : Tree → Tree → Tree) (part : List Atom → Option Tree) (left : Tree) : List (List Atom) → Option Tree
  | [] => some left
  | atoms :: rest => (part atoms).bind fun right => joined join part (join left right) rest

def divided (connective : Atom) (join : Tree → Tree → Tree) (part : List Atom → Option Tree) (atoms : List Atom) :
    Option Tree :=
  match atoms.splitOnP (· == connective) with
  | [] => none
  | first :: rest => (part first).bind fun left => joined join part left rest

def conjunction (atoms : List Atom) : Option Tree :=
  divided .and .and comparison atoms

def disjunction (atoms : List Atom) : Option Tree :=
  divided .or .or conjunction atoms

namespace Atom

def isConnective : Atom → Bool
  | .and | .or => true
  | _ => false

def isNegation : Atom → Bool
  | .negation => true
  | _ => false

-- What stands between two trees.
def joins : Atom → Bool
  | .comparator _ | .and | .or => true
  | _ => false

end Atom

-- No AND and no OR.
def isFree (atoms : List Atom) : Bool :=
  !atoms.any (·.isConnective)

def negates (atoms : List Atom) : Bool :=
  atoms.any (·.isNegation)

def leads (atoms : List Atom) : Bool :=
  (atoms.head?.map Atom.isNegation).getD false

-- Nothing but comparisons.
def isChain (atoms : List Atom) : Bool :=
  isFree atoms && !negates atoms

-- NOT in front of all that follows.
def isNegated (atoms : List Atom) : Bool :=
  leads atoms && isFree atoms

variable {atoms left right : List Atom}

@[simp] theorem free_cons (atom : Atom) : isFree (atom :: atoms) = (!atom.isConnective && isFree atoms) := by
  rw [isFree, List.any_cons, Bool.not_or, isFree]

@[simp] theorem free_append : isFree (left ++ right) = (isFree left && isFree right) := by
  rw [isFree, List.any_append, Bool.not_or, isFree, isFree]

@[simp] theorem negates_cons (atom : Atom) : negates (atom :: atoms) = (atom.isNegation || negates atoms) :=
  List.any_cons

@[simp] theorem negates_append : negates (left ++ right) = (negates left || negates right) :=
  List.any_append

theorem chain_joined (operator : String) :
    isChain (left ++ .comparator operator :: right) = (isChain left && isChain right) := by
  simp only [isChain, free_append, free_cons, negates_append, negates_cons, Atom.isConnective, Atom.isNegation]
  cases isFree left <;> cases isFree right <;> cases negates left <;> cases negates right <;> rfl

theorem negated_joined (filled : left ≠ []) (operator : String) :
    isNegated (left ++ .comparator operator :: right) = (isNegated left && isFree right) := by
  have begins : leads (left ++ .comparator operator :: right) = leads left := by
    obtain ⟨first, rest, rfl⟩ := List.exists_cons_of_ne_nil filled
    rfl
  rw [isNegated, isNegated, begins, free_append, Bool.and_assoc]
  rfl

theorem joined_long (filled : left ≠ []) (joiner : Atom) (right : List Atom) :
    1 < (left ++ joiner :: right).length := by
  have := List.length_pos_iff.2 filled
  simp only [List.length_append, List.length_cons]
  omega

-- Trees with NOT in front and something between them.
inductive Phrase : List Atom → Prop where
  | tree (tree : Tree) : Phrase [.tree tree]
  | negated {atoms : List Atom} (phrase : Phrase atoms) : Phrase (.negation :: atoms)
  | before {joiner : Atom} {atoms : List Atom} (tree : Tree) (joins : joiner.joins = true) (phrase : Phrase atoms) :
      Phrase (.tree tree :: joiner :: atoms)

theorem phrase_joined {joiner : Atom} (joins : joiner.joins = true) (first : Phrase left) (second : Phrase right) :
    Phrase (left ++ joiner :: right) := by
  induction first with
  | tree tree => exact .before tree joins second
  | negated _ ih => exact .negated ih
  | before tree between _ ih => exact .before tree between ih

theorem phrase_filled (phrase : Phrase atoms) : atoms ≠ [] := by
  cases phrase <;> exact List.cons_ne_nil _ _

theorem phrase_last (phrase : Phrase atoms) : ∃ tree, atoms.getLast? = some (.tree tree) := by
  induction phrase with
  | tree tree => exact ⟨tree, rfl⟩
  | negated phrase ih =>
    obtain ⟨tree, last⟩ := ih
    exact ⟨tree, by rw [List.getLast?_cons, last]; rfl⟩
  | before first _ phrase ih =>
    obtain ⟨tree, last⟩ := ih
    exact ⟨tree, by rw [List.getLast?_cons, List.getLast?_cons, last]; rfl⟩

theorem phrase_single (phrase : Phrase atoms) (one : atoms.length = 1) : ∃ tree, atoms = [.tree tree] := by
  cases phrase with
  | tree tree => exact ⟨tree, rfl⟩
  | negated inner => cases inner <;> simp at one
  | before => simp at one

-- A phrase without AND and OR.
inductive Comparisons : List Atom → Prop where
  | tree (tree : Tree) : Comparisons [.tree tree]
  | negated {atoms : List Atom} (inner : Comparisons atoms) : Comparisons (.negation :: atoms)
  | before {atoms : List Atom} (tree : Tree) (operator : String) (others : Comparisons atoms) :
      Comparisons (.tree tree :: .comparator operator :: atoms)

theorem phrase_comparisons (phrase : Phrase atoms) (free : isFree atoms = true) : Comparisons atoms := by
  induction phrase with
  | tree tree => exact .tree tree
  | negated phrase ih =>
    rw [free_cons, Bool.and_eq_true] at free
    exact .negated (ih free.2)
  | @before joiner rest first joins phrase ih =>
    simp only [free_cons, Bool.and_eq_true] at free
    cases joiner with
    | tree | negation => cases joins
    | and | or => cases free.2.1
    | comparator operator => exact .before first operator (ih free.2.2)

-- How many comparisons stand one on the left of the other, from the root on. A comparison has one more of them than
-- its left side; every other way to group a comparison of two sides is told from it by this number.
def spine : Tree → Nat
  | .compare _ left _ => spine left + 1
  | _ => 0

-- How many comparisons stand in front of the first NOT.
def links : List Atom → Nat
  | .comparator _ :: rest => links rest + 1
  | .tree _ :: rest => links rest
  | _ => 0

-- The comparisons inside the first tree.
def start : List Atom → Nat
  | .tree tree :: _ => spine tree
  | _ => 0

theorem comparisons_read (comparisons : Comparisons atoms) :
    (∃ tree, comparison atoms = some tree ∧ spine tree = start atoms + links atoms) ∧ ∀ left operator, ∃ tree,
      chain left (.comparator operator :: atoms) = some tree ∧ spine tree = spine left + 1 + links atoms := by
  induction comparisons with
  | tree tree => exact ⟨⟨tree, rfl, rfl⟩, fun left operator => ⟨.compare operator left tree, rfl, rfl⟩⟩
  | negated _ ih =>
    obtain ⟨⟨inner, read, _⟩, _⟩ := ih
    refine ⟨⟨.not inner, ?_, rfl⟩, fun left operator => ⟨.compare operator left (.not inner), ?_, rfl⟩⟩
    · rw [comparison, read, Option.map_some]
    · rw [chain, read, Option.map_some]
  | before first operator _ ih =>
    obtain ⟨_, follows⟩ := ih
    constructor
    · obtain ⟨tree, read, length⟩ := follows first operator
      refine ⟨tree, read, length.trans ?_⟩
      simp only [start, links]
      omega
    · intro left before
      obtain ⟨tree, read, length⟩ := follows (.compare before left first) operator
      refine ⟨tree, read, length.trans ?_⟩
      simp only [spine, links]
      omega

theorem comparison_spine (comparisons : Comparisons atoms) {tree : Tree} (read : comparison atoms = some tree) :
    spine tree = start atoms + links atoms := by
  obtain ⟨⟨same, known, length⟩, _⟩ := comparisons_read comparisons
  cases read.symm.trans known
  exact length

-- Comparisons without NOT are complete before the next operator.
theorem chain_goes_on (comparisons : Comparisons atoms) (plain : negates atoms = false) {left tree : Tree}
    {operator : String} (read : chain left (.comparator operator :: atoms) = some tree) (rest : List Atom) :
    chain left (.comparator operator :: (atoms ++ rest)) = chain tree rest := by
  induction comparisons generalizing left operator with
  | tree right =>
    cases read
    rfl
  | negated _ _ => cases plain
  | before first next _ ih => exact ih plain read

theorem links_joined (comparisons : Comparisons left) {operator : String}
    (one : links (left ++ .comparator operator :: right) = links left + 1) :
    negates left = false ∧ links right = 0 := by
  induction comparisons with
  | tree tree => exact ⟨rfl, Nat.succ.inj one⟩
  | negated _ _ => cases one
  | before tree next _ ih => exact ih (Nat.succ.inj one)

theorem links_zero (comparisons : Comparisons atoms) (zero : links atoms = 0) :
    atoms.length = 1 ∨ leads atoms = true := by
  cases comparisons with
  | tree tree => exact .inl rfl
  | negated _ => exact .inr rfl
  | before tree next _ => cases zero

-- An atom that does not divide the list goes to the first part.
theorem split_cons {atom connective : Atom} (other : atom ≠ connective) (rest : List Atom) :
    ∃ part parts, rest.splitOnP (· == connective) = part :: parts ∧
      (atom :: rest).splitOnP (· == connective) = (atom :: part) :: parts := by
  obtain ⟨part, parts, split⟩ := List.exists_cons_of_ne_nil (List.splitOnP_ne_nil (· == connective) rest)
  refine ⟨part, parts, split, ?_⟩
  rw [List.splitOnP_cons_eq_if_modifyHead, if_neg (by simpa using other), split]
  rfl

theorem mem_split {connective : Atom} (atoms : List Atom) :
    ∀ part ∈ atoms.splitOnP (· == connective), ∀ atom ∈ part, atom ∈ atoms ∧ atom ≠ connective := by
  induction atoms with
  | nil => simp [List.splitOnP_nil]
  | cons first rest ih =>
    have others : ∀ part ∈ rest.splitOnP (· == connective), ∀ atom ∈ part, atom ∈ first :: rest ∧ atom ≠ connective :=
      fun part among atom member => (ih part among atom member).imp_left (List.mem_cons_of_mem first)
    by_cases divides : first = connective
    · rw [List.splitOnP_cons_eq_if_modifyHead, if_pos (by simpa using divides), List.forall_mem_cons]
      exact ⟨List.forall_mem_nil _, others⟩
    · obtain ⟨part, parts, split, grown⟩ := split_cons divides rest
      rw [split, List.forall_mem_cons] at others
      rw [grown, List.forall_mem_cons]
      exact ⟨List.forall_mem_cons.2 ⟨⟨List.mem_cons_self, divides⟩, others.1⟩, others.2⟩

-- A connective divides a phrase into phrases.
theorem phrase_parts (phrase : Phrase atoms) {connective : Atom} (divides : connective.isConnective = true) :
    ∀ part ∈ atoms.splitOnP (· == connective), Phrase part := by
  have other : ∀ atom : Atom, atom.isConnective = false → atom ≠ connective := by
    rintro atom no rfl
    rw [divides] at no
    cases no
  induction phrase with
  | tree tree =>
    obtain ⟨part, parts, split, grown⟩ := split_cons (other (.tree tree) rfl) []
    rw [List.splitOnP_nil] at split
    cases split
    rw [grown]
    simpa using Phrase.tree tree
  | @negated rest phrase ih =>
    obtain ⟨part, parts, split, grown⟩ := split_cons (other .negation rfl) rest
    rw [split, List.forall_mem_cons] at ih
    rw [grown, List.forall_mem_cons]
    exact ⟨.negated ih.1, ih.2⟩
  | @before joiner rest first joins phrase ih =>
    obtain ⟨part, parts, split, grown⟩ := split_cons (other (.tree first) rfl) (joiner :: rest)
    rw [grown, List.forall_mem_cons]
    by_cases divided : joiner = connective
    · rw [List.splitOnP_cons_eq_if_modifyHead, if_pos (by simpa using divided)] at split
      cases split
      exact ⟨.tree first, ih⟩
    · obtain ⟨_, _, inner, same⟩ := split_cons divided rest
      cases split.symm.trans same
      rw [inner, List.forall_mem_cons] at ih
      exact ⟨.before first joins ih.1, ih.2⟩

section Divided

variable {connective : Atom} {join : Tree → Tree → Tree} {part : List Atom → Option Tree} {tree : Tree}

theorem joined_reads (join : Tree → Tree → Tree) {parts : List (List Atom)} (left : Tree)
    (each : ∀ atoms ∈ parts, ∃ tree, part atoms = some tree) : ∃ tree, joined join part left parts = some tree := by
  induction parts generalizing left with
  | nil => exact ⟨left, rfl⟩
  | cons atoms rest ih =>
    rw [List.forall_mem_cons] at each
    obtain ⟨right, read⟩ := each.1
    rw [joined, read, Option.bind_some]
    exact ih (join left right) each.2

theorem divided_reads (join : Tree → Tree → Tree)
    (each : ∀ piece ∈ atoms.splitOnP (· == connective), ∃ tree, part piece = some tree) :
    ∃ tree, divided connective join part atoms = some tree := by
  obtain ⟨first, rest, split⟩ := List.exists_cons_of_ne_nil (List.splitOnP_ne_nil (· == connective) atoms)
  rw [split, List.forall_mem_cons] at each
  obtain ⟨left, read⟩ := each.1
  obtain ⟨tree, whole⟩ := joined_reads join left each.2
  refine ⟨tree, ?_⟩
  unfold divided
  simp only [split, read, Option.bind_some, whole]

theorem divided_absent (absent : connective ∉ atoms) : divided connective join part atoms = part atoms := by
  have split : atoms.splitOnP (· == connective) = [atoms] := by
    apply List.splitOnP_eq_singleton
    intro atom member
    rw [beq_eq_false_iff_ne]
    rintro rfl
    exact absent member
  unfold divided
  simp [split, joined]

theorem joined_spine (flat : ∀ left right, spine (join left right) = 0) {parts : List (List Atom)} {left : Tree}
    (more : parts ≠ [] ∨ spine left = 0) (read : joined join part left parts = some tree) : spine tree = 0 := by
  induction parts generalizing left with
  | nil =>
    cases read
    exact more.resolve_left (fun filled => filled rfl)
  | cons atoms rest ih =>
    obtain ⟨right, _, read⟩ := Option.bind_eq_some_iff.1 read
    exact ih (.inr (flat left right)) read

theorem divided_spine (flat : ∀ left right, spine (join left right) = 0) (present : connective ∈ atoms)
    (read : divided connective join part atoms = some tree) : spine tree = 0 := by
  obtain ⟨before, after, rfl⟩ := List.append_of_mem present
  obtain ⟨first, rest, split⟩ := List.exists_cons_of_ne_nil (List.splitOnP_ne_nil (· == connective) before)
  have parts : (before ++ connective :: after).splitOnP (· == connective) =
      first :: (rest ++ after.splitOnP (· == connective)) := by
    rw [List.splitOnP_append_cons before after (by simp), split, List.cons_append]
  unfold divided at read
  rw [parts] at read
  obtain ⟨left, _, read⟩ := Option.bind_eq_some_iff.1 read
  refine joined_spine flat (.inl ?_) read
  exact List.append_ne_nil_of_right_ne_nil _ (List.splitOnP_ne_nil _ _)

end Divided

theorem free_iff : isFree atoms = true ↔ Atom.and ∉ atoms ∧ Atom.or ∉ atoms := by
  induction atoms with
  | nil => simp [isFree]
  | cons atom rest ih => cases atom <;> simp [ih, Atom.isConnective]

theorem phrase_reads (phrase : Phrase atoms) : ∃ tree, disjunction atoms = some tree := by
  apply divided_reads
  intro part among
  apply divided_reads
  intro piece inside
  have free : isFree piece = true :=
    free_iff.2 ⟨fun member => (mem_split part piece inside _ member).2 rfl,
      fun member => (mem_split atoms part among _ (mem_split part piece inside _ member).1).2 rfl⟩
  have inner := phrase_parts (phrase_parts phrase rfl part among) rfl piece inside
  exact (comparisons_read (phrase_comparisons inner free)).1.imp fun _ read => read.1

theorem disjunction_free (free : isFree atoms = true) : disjunction atoms = comparison atoms := by
  obtain ⟨noAnd, noOr⟩ := free_iff.1 free
  rw [disjunction, divided_absent noOr, conjunction, divided_absent noAnd]

theorem disjunction_spine (bound : isFree atoms = false) {tree : Tree} (read : disjunction atoms = some tree) :
    spine tree = 0 := by
  by_cases someOr : Atom.or ∈ atoms
  · exact divided_spine (fun _ _ => rfl) someOr read
  · rw [disjunction, divided_absent someOr] at read
    refine divided_spine (fun _ _ => rfl) (Decidable.byContradiction fun noAnd => ?_) read
    rw [free_iff.2 ⟨noAnd, someOr⟩] at bound
    cases bound

theorem comparison_goes_on (comparisons : Comparisons atoms) (plain : negates atoms = false) {tree : Tree}
    (read : comparison atoms = some tree) (rest : List Atom) : comparison (atoms ++ rest) = chain tree rest := by
  cases comparisons with
  | tree first =>
    cases read
    rfl
  | negated _ => cases plain
  | before first operator others => exact chain_goes_on others plain read rest

-- NOT on the right is the whole right side if no connective follows it.
theorem chain_right (comparisons : Comparisons right) (apart : right.length = 1 ∨ leads right = true)
    (operator : String) (leftTree : Tree) {rightTree : Tree} (read : comparison right = some rightTree) :
    chain leftTree (.comparator operator :: right) = some (.compare operator leftTree rightTree) := by
  cases comparisons with
  | tree tree =>
    cases read
    rfl
  | negated _ =>
    obtain ⟨inner, known, rfl⟩ := Option.map_eq_some_iff.1 read
    rw [chain, known, Option.map_some]
  | before tree next _ =>
    rcases apart with one | leading
    · simp at one
    · cases leading

theorem compare_keeps_sides (first : Phrase left) (second : Phrase right) (operator : String)
    {leftTree rightTree : Tree} (begun : disjunction left = some leftTree)
    (ended : disjunction right = some rightTree) :
    disjunction (left ++ .comparator operator :: right) = some (.compare operator leftTree rightTree) ↔
      isChain left = true ∧ (right.length = 1 ∨ isNegated right = true) := by
  rw [isChain, isNegated, Bool.and_eq_true, Bool.and_eq_true, Bool.not_eq_true']
  constructor
  · intro whole
    -- a connective would be the root of the tree
    have free : isFree (left ++ .comparator operator :: right) = true := by
      rw [← Bool.not_eq_false]
      intro bound
      cases disjunction_spine bound whole
    have all := phrase_comparisons (phrase_joined rfl first second) free
    rw [disjunction_free free] at whole
    rw [free_append, free_cons, Bool.and_eq_true, Bool.and_eq_true] at free
    have before := phrase_comparisons first free.1
    rw [disjunction_free free.1] at begun
    have begins : start (left ++ .comparator operator :: right) = start left := by
      cases before <;> rfl
    -- the tree has one comparison more than the left side
    have one : links (left ++ .comparator operator :: right) = links left + 1 := by
      have length := comparison_spine all whole
      rw [begins, spine, comparison_spine before begun] at length
      omega
    obtain ⟨plain, zero⟩ := links_joined before one
    refine ⟨⟨free.1, plain⟩, ?_⟩
    exact (links_zero (phrase_comparisons second free.2.2) zero).imp id fun leading => ⟨leading, free.2.2⟩
  · rintro ⟨⟨leftFree, plain⟩, apart⟩
    have rightFree : isFree right = true := by
      rcases apart with one | ⟨_, free⟩
      · obtain ⟨tree, rfl⟩ := phrase_single second one
        rfl
      · exact free
    have free : isFree (left ++ .comparator operator :: right) = true := by
      rw [free_append, free_cons, leftFree, rightFree]
      rfl
    rw [disjunction_free leftFree] at begun
    rw [disjunction_free rightFree] at ended
    rw [disjunction_free free, comparison_goes_on (phrase_comparisons first leftFree) plain begun]
    exact chain_right (phrase_comparisons second rightFree) (apart.imp id And.left) operator leftTree ended

end PipeSql.WhereText

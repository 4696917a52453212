import Mathlib.Data.List.Forall2
import PipeSql.Proofs.Script.Places

set_option autoImplicit false

namespace PipeSql

-- The same is behind both cursors, and the tokens ahead are the same up to the bound.
structure Cursor.Agree (bound : Nat) (left right : Cursor) : Prop where
  index : left.index = right.index
  offset : left.offset = right.offset
  ahead : left.ahead.take (bound - left.index) = right.ahead.take (bound - left.index)

theorem Cursor.Agree.head {bound : Nat} {left right : Cursor} (agree : left.Agree bound right)
    (inside : left.index < bound) : left.ahead.head? = right.ahead.head? := by
  have room : bound - left.index ≠ 0 := by omega
  have fronts := congrArg List.head? agree.ahead
  rw [List.head?_take, List.head?_take, if_neg room, if_neg room] at fronts
  exact fronts

namespace Attempt

variable {α : Type}

-- The attempt got stuck and ended before the bound.
structure Within (bound : Nat) (attempt : Attempt α) : Prop where
  stall : ∀ stall ∈ attempt.stall, stall.index < bound
  result : ∀ found ∈ attempt.result, found.2.index < bound

structure Same (bound : Nat) (left right : Attempt α) : Prop where
  stall : left.stall = right.stall
  failed : left.result = none → right.result = none
  found : ∀ value behind, left.result = some (value, behind) →
    ∃ twin, right.result = some (value, twin) ∧ behind.Agree bound twin

end Attempt

theorem Stall.further_left {first : Option Stall} (second : Option Stall) {stall : Stall} (given : stall ∈ first) :
    ∃ last ∈ further first second, stall.index ≤ last.index := by
  cases given
  cases second with
  | none => exact ⟨stall, rfl, Nat.le_refl _⟩
  | some other =>
    simp only [further]
    split
    · exact ⟨other, rfl, by omega⟩
    · split
      · exact ⟨stall, rfl, Nat.le_refl _⟩
      · exact ⟨_, rfl, Nat.le_refl _⟩

theorem Stall.further_right (first : Option Stall) {second : Option Stall} {stall : Stall} (given : stall ∈ second) :
    ∃ last ∈ further first second, stall.index ≤ last.index := by
  cases given
  cases first with
  | none => exact ⟨stall, rfl, Nat.le_refl _⟩
  | some other =>
    simp only [further]
    split
    · exact ⟨stall, rfl, Nat.le_refl _⟩
    · split
      · exact ⟨other, rfl, by omega⟩
      · exact ⟨_, rfl, by dsimp only; omega⟩

theorem Stall.further_below {bound : Nat} {first second : Option Stall}
    (below : ∀ stall ∈ further first second, stall.index < bound) :
    (∀ stall ∈ first, stall.index < bound) ∧ ∀ stall ∈ second, stall.index < bound := by
  constructor
  · intro stall told
    obtain ⟨last, furthest, further⟩ := further_left second told
    exact Nat.lt_of_le_of_lt further (below last furthest)
  · intro stall told
    obtain ⟨last, furthest, further⟩ := further_right first told
    exact Nat.lt_of_le_of_lt further (below last furthest)

namespace Recognizer

variable {α β : Type} {size twinSize least more : Nat}

-- A recognizer that succeeds has taken so many tokens at least, and one that fails before few enough tokens says where.
structure Steady (size least : Nat) (reader : Recognizer α) : Prop where
  moves : ∀ cursor value behind, (reader cursor).result = some (value, behind) →
    cursor.index + least ≤ behind.index ∧ behind.index + behind.ahead.length = cursor.index + cursor.ahead.length
  tells : ∀ cursor, cursor.ahead.length < size → (reader cursor).result = none →
    ∃ stall ∈ (reader cursor).stall, cursor.index ≤ stall.index

theorem Steady.mono {reader : Recognizer α} (steady : Steady size least reader) {smaller fewer : Nat}
    (small : smaller ≤ size) (few : fewer ≤ least) : Steady smaller fewer reader where
  moves cursor value behind found := by
    obtain ⟨forward, total⟩ := steady.moves cursor value behind found
    exact ⟨by omega, total⟩
  tells cursor short := steady.tells cursor (by omega)

-- Wherever it ended or got stuck, it began there or before.
theorem Steady.inside {reader : Recognizer α} (steady : Steady size least reader) {bound : Nat} {cursor : Cursor}
    (short : cursor.ahead.length < size) (within : (reader cursor).Within bound) : cursor.index < bound := by
  cases read : (reader cursor).result with
  | none =>
    obtain ⟨stall, told, later⟩ := steady.tells cursor short read
    exact Nat.lt_of_le_of_lt later (within.stall stall told)
  | some found =>
    have moved := steady.moves cursor found.1 found.2 read
    have ended := within.result found read
    omega

-- Where the tokens ahead agree as far as the first of two recognizers looks, the second does the same.
structure Local (size twinSize least : Nat) (left right : Recognizer α) : Prop where
  steady : Steady size least left
  twinSteady : Steady twinSize least right
  agrees : ∀ bound cursor twin, cursor.ahead.length < size → twin.ahead.length < twinSize → cursor.Agree bound twin →
    (left cursor).Within bound → (left cursor).Same bound (right twin)

theorem Local.mono {left right : Recognizer α} (same : Local size twinSize least left right) {smaller shorter fewer : Nat}
    (small : smaller ≤ size) (short : shorter ≤ twinSize) (few : fewer ≤ least) :
    Local smaller shorter fewer left right where
  steady := same.steady.mono small few
  twinSteady := same.twinSteady.mono short few
  agrees bound cursor twin before behind := same.agrees bound cursor twin (by omega) (by omega)

theorem steady_pure (value : α) : Steady size 0 (pure value : Recognizer α) where
  moves cursor found behind result := by
    cases result
    exact ⟨Nat.le_refl _, rfl⟩
  tells cursor short failed := by cases failed

theorem local_pure (value : α) : Local size twinSize 0 (pure value : Recognizer α) (pure value) where
  steady := steady_pure value
  twinSteady := steady_pure value
  agrees _ cursor twin _ _ agree _ := by
    refine ⟨rfl, fun failed => (by cases failed), fun found behind result => ?_⟩
    cases result
    exact ⟨twin, rfl, agree⟩

theorem steady_bind {first : Recognizer α} {next : α → Recognizer β} (front : Steady size least first)
    (back : ∀ value, Steady (size - least) more (next value)) : Steady size (least + more) (first >>= next) where
  moves cursor result behind found := by
    rw [bind_result] at found
    obtain ⟨⟨value, between⟩, read, rest⟩ := Option.bind_eq_some_iff.1 found
    have before := front.moves cursor value between read
    have after := (back value).moves between result behind rest
    omega
  tells cursor short failed := by
    rw [bind_result] at failed
    rw [bind_stall]
    cases read : (first cursor).result with
    | none => exact front.tells cursor short read
    | some found =>
      have before := front.moves cursor found.1 found.2 read
      have stuck : (next found.1 found.2).result = none := by
        rw [read] at failed
        exact failed
      obtain ⟨stall, told, later⟩ := (back found.1).tells found.2 (by omega) stuck
      obtain ⟨last, furthest, further⟩ := Stall.further_right (first cursor).stall told
      exact ⟨last, furthest, by omega⟩

-- What comes second has fewer tokens ahead, by those that the first took.
theorem local_sequence {left right : Recognizer α} {next after : α → Recognizer β}
    (front : Local size twinSize least left right)
    (back : ∀ value, Local (size - least) (twinSize - least) more (next value) (after value)) :
    Local size twinSize (least + more) (left >>= next) (right >>= after) where
  steady := steady_bind front.steady fun value => (back value).steady
  twinSteady := steady_bind front.twinSteady fun value => (back value).twinSteady
  agrees bound cursor twin before behind agree within := by
    obtain ⟨stalls, results⟩ := within
    rw [bind_stall] at stalls
    rw [bind_result] at results
    cases read : (left cursor).result with
    | none =>
      rw [read] at stalls
      have inside : (left cursor).Within bound := ⟨stalls, fun found member => by rw [read] at member; cases member⟩
      have same := front.agrees bound cursor twin before behind agree inside
      have other := same.failed read
      constructor
      · rw [bind_stall, bind_stall, read, other]
        exact same.stall
      · rw [bind_result, bind_result, read, other]
        exact id
      · rw [bind_result, read]
        rintro value after ⟨⟩
    | some found =>
      rw [read] at stalls results
      have moved := front.steady.moves cursor found.1 found.2 read
      obtain ⟨leftStalls, nextStalls⟩ := Stall.further_below stalls
      have insideNext : (next found.1 found.2).Within bound := ⟨nextStalls, results⟩
      have reached : found.2.index < bound := (back found.1).steady.inside (by omega) insideNext
      have inside : (left cursor).Within bound := by
        refine ⟨leftStalls, fun other same => ?_⟩
        rw [read] at same
        cases same
        exact reached
      have same := front.agrees bound cursor twin before behind agree inside
      obtain ⟨place, other, agreeing⟩ := same.found found.1 found.2 read
      have twinMoved := front.twinSteady.moves twin found.1 place other
      have later := (back found.1).agrees bound found.2 place (by omega) (by omega) agreeing insideNext
      constructor
      · rw [bind_stall, bind_stall, read, other]
        dsimp only
        rw [same.stall, later.stall]
      · rw [bind_result, bind_result, read, other]
        exact later.failed
      · rw [bind_result, bind_result, read, other]
        exact later.found

section

variable {left right : Recognizer α} {next after : α → Recognizer β}

theorem local_bind (front : Local size twinSize least left right)
    (back : ∀ value, Local size twinSize more (next value) (after value)) :
    Local size twinSize least (left >>= next) (right >>= after) :=
  (local_sequence front fun value => (back value).mono (Nat.sub_le _ _) (Nat.sub_le _ _) (Nat.le_refl _)).mono
    (Nat.le_refl _) (Nat.le_refl _) (Nat.le_add_right _ _)

-- What comes second takes the tokens that count.
theorem local_lead (front : Local size twinSize least left right)
    (back : ∀ value, Local size twinSize more (next value) (after value)) :
    Local size twinSize more (left >>= next) (right >>= after) :=
  (local_sequence front fun value => (back value).mono (Nat.sub_le _ _) (Nat.sub_le _ _) (Nat.le_refl _)).mono
    (Nat.le_refl _) (Nat.le_refl _) (Nat.le_add_left _ _)

-- Behind a token there is less to be read.
theorem local_step (front : Local (size + 1) (twinSize + 1) 1 left right)
    (back : ∀ value, Local size twinSize more (next value) (after value)) :
    Local (size + 1) (twinSize + 1) 1 (left >>= next) (right >>= after) :=
  (local_sequence front back).mono (Nat.le_refl _) (Nat.le_refl _) (Nat.le_add_right _ _)

theorem local_map (change : α → β) (given : Local size twinSize least left right) :
    Local size twinSize least (change <$> left) (change <$> right) :=
  local_bind given fun value => local_pure (change value)

end

theorem steady_next (wanted : String) (use : Token → Option α) : Steady size 1 (next wanted use) where
  moves := by
    rintro ⟨index, offset, ahead⟩ value behind found
    cases ahead with
    | nil => cases found
    | cons lexeme ahead =>
      cases used : use lexeme.token with
      | none => simp [next, used, refuse] at found
      | some result =>
        simp only [next, used, Option.some.injEq, Prod.mk.injEq] at found
        obtain ⟨-, rfl⟩ := found
        exact ⟨Nat.le_refl _, by simp only [List.length_cons]; omega⟩
  tells := by
    rintro ⟨index, offset, ahead⟩ short failed
    cases ahead with
    | nil => exact ⟨_, rfl, Nat.le_refl _⟩
    | cons lexeme ahead =>
      cases used : use lexeme.token with
      | none => exact ⟨⟨index, [wanted]⟩, by simp [next, used, refuse], Nat.le_refl _⟩
      | some result => simp [next, used] at failed

theorem local_next (wanted : String) (use : Token → Option α) :
    Local size twinSize 1 (next wanted use) (next wanted use) where
  steady := steady_next wanted use
  twinSteady := steady_next wanted use
  agrees := by
    rintro bound ⟨index, offset, ahead⟩ ⟨_, _, others⟩ before behind ⟨rfl, rfl, same⟩ within
    dsimp only at same
    have inside : index < bound := (steady_next wanted use).inside before within
    obtain ⟨room, rooms⟩ : ∃ room, bound - index = room + 1 := ⟨bound - index - 1, by omega⟩
    rw [rooms] at same
    cases ahead with
    | nil =>
      cases others with
      | nil => exact ⟨rfl, id, fun value behind found => by cases found⟩
      | cons => simp at same
    | cons lexeme ahead =>
      cases others with
      | nil => simp at same
      | cons other others =>
        rw [List.take_succ_cons, List.take_succ_cons] at same
        obtain ⟨rfl, rest⟩ := List.cons.inj same
        cases used : use lexeme.token with
        | none =>
          simp only [next, used]
          exact ⟨rfl, id, fun value behind found => by cases found⟩
        | some value =>
          simp only [next, used]
          refine ⟨rfl, fun failed => (by cases failed), fun result behind found => ?_⟩
          cases found
          have shorter : bound - (index + 1) = room := by omega
          refine ⟨_, rfl, rfl, rfl, ?_⟩
          rw [shorter]
          exact rest

theorem local_accept (use : Token → Option α) : Local size twinSize 1 (accept use) (accept use) :=
  local_next _ use

theorem local_token (expected : Token) : Local size twinSize 1 (token expected) (token expected) :=
  local_next _ _

theorem local_keyword (word : Keyword) : Local size twinSize 1 (keyword word) (keyword word) :=
  local_token _

theorem local_symbol (mark : Symbol) : Local size twinSize 1 (symbol mark) (symbol mark) :=
  local_token _

theorem steady_at_end : Steady size 0 atEnd where
  moves cursor value behind found := by
    unfold atEnd at found
    split at found
    · cases found
      exact ⟨Nat.le_refl _, rfl⟩
    · cases found
  tells cursor short failed := by
    unfold atEnd at failed ⊢
    split at failed
    · cases failed
    · rename_i more
      rw [if_neg more]
      exact ⟨_, rfl, Nat.le_refl _⟩

theorem local_at_end : Local size twinSize 0 atEnd atEnd where
  steady := steady_at_end
  twinSteady := steady_at_end
  agrees bound cursor twin before behind agree within := by
    have heads := agree.head (steady_at_end.inside before within)
    have ends : cursor.ahead.isEmpty = twin.ahead.isEmpty := by
      rw [Bool.eq_iff_iff, List.isEmpty_iff, List.isEmpty_iff, ← List.head?_eq_none_iff, ← List.head?_eq_none_iff, heads]
    unfold atEnd
    rw [ends]
    split
    · refine ⟨rfl, fun failed => (by cases failed), fun value place found => ?_⟩
      cases found
      exact ⟨twin, rfl, agree⟩
    · refine ⟨?_, id, fun value place found => (by cases found)⟩
      rw [refuse, refuse, agree.index]

theorem steady_labelled (label : String) {inner : Recognizer α} (given : Steady size least inner) :
    Steady size least (labelled label inner) where
  moves cursor value behind found := by
    rw [labelled_result] at found
    exact given.moves cursor value behind found
  tells cursor short failed := by
    rw [labelled_result] at failed
    obtain ⟨stall, told, later⟩ := given.tells cursor short failed
    rw [labelled_stall, Option.mem_def.1 told, Option.map_some]
    refine ⟨_, rfl, ?_⟩
    split
    · exact Nat.le_refl _
    · exact later

theorem local_labelled (label : String) {left right : Recognizer α} (given : Local size twinSize least left right) :
    Local size twinSize least (labelled label left) (labelled label right) where
  steady := steady_labelled label given.steady
  twinSteady := steady_labelled label given.twinSteady
  agrees bound cursor twin before behind agree within := by
    obtain ⟨stalls, results⟩ := within
    rw [labelled_stall] at stalls
    rw [labelled_result] at results
    have inside : (left cursor).Within bound := by
      refine ⟨fun stall told => ?_, results⟩
      have named := stalls _ (Option.mem_map_of_mem _ told)
      split at named
      · rename_i here
        rw [here]
        exact named
      · exact named
    have same := given.agrees bound cursor twin before behind agree inside
    constructor
    · rw [labelled_stall, labelled_stall, same.stall, agree.index]
    · rw [labelled_result, labelled_result]
      exact same.failed
    · rw [labelled_result, labelled_result]
      exact same.found

theorem steady_or_else {first second : Recognizer α} (front : Steady size least first) (back : Steady size least second) :
    Steady size least (orElse first second) where
  moves cursor value behind found := by
    rw [or_else_result] at found
    rcases Option.or_eq_some_iff.1 found with found | ⟨-, found⟩
    · exact front.moves cursor value behind found
    · exact back.moves cursor value behind found
  tells cursor short failed := by
    rw [or_else_result, Option.or_eq_none_iff] at failed
    obtain ⟨stall, told, later⟩ := front.tells cursor short failed.1
    obtain ⟨last, furthest, further⟩ := Stall.further_left (second cursor).stall told
    rw [or_else_stall, failed.1]
    exact ⟨last, furthest, by omega⟩

theorem local_or_else {left left' right right' : Recognizer α} (front : Local size twinSize least left right)
    (back : Local size twinSize least left' right') :
    Local size twinSize least (orElse left left') (orElse right right') where
  steady := steady_or_else front.steady back.steady
  twinSteady := steady_or_else front.twinSteady back.twinSteady
  agrees bound cursor twin before behind agree within := by
    obtain ⟨stalls, results⟩ := within
    rw [or_else_stall] at stalls
    rw [or_else_result] at results
    cases read : (left cursor).result with
    | some found =>
      rw [read] at stalls results
      have inside : (left cursor).Within bound := ⟨stalls, fun other same => results other (by rw [read] at same; exact same)⟩
      have same := front.agrees bound cursor twin before behind agree inside
      obtain ⟨place, other, -⟩ := same.found found.1 found.2 read
      constructor
      · rw [or_else_stall, or_else_stall, read, other]
        exact same.stall
      · rw [or_else_result, read]
        rintro ⟨⟩
      · rw [or_else_result, or_else_result, other, read, Option.some_or, Option.some_or, ← read, ← other]
        exact same.found
    | none =>
      rw [read] at stalls results
      obtain ⟨leftStalls, nextStalls⟩ := Stall.further_below stalls
      have inside : (left cursor).Within bound := ⟨leftStalls, fun other same => by rw [read] at same; cases same⟩
      have insideNext : (left' cursor).Within bound := ⟨nextStalls, results⟩
      have same := front.agrees bound cursor twin before behind agree inside
      have later := back.agrees bound cursor twin before behind agree insideNext
      have other := same.failed read
      constructor
      · rw [or_else_stall, or_else_stall, read, other]
        dsimp only
        rw [same.stall, later.stall]
      · rw [or_else_result, or_else_result, read, other]
        exact later.failed
      · rw [or_else_result, or_else_result, read, other]
        exact later.found

theorem or_else_fail (reader : Recognizer α) : orElse reader fail = reader := by
  funext cursor
  unfold orElse
  rcases reader cursor with ⟨_ | stall, _ | found⟩ <;> rfl

theorem local_first_of {lefts rights : List (Recognizer α)} (filled : lefts ≠ [])
    (each : List.Forall₂ (Local size twinSize least) lefts rights) :
    Local size twinSize least (firstOf lefts) (firstOf rights) := by
  induction each with
  | nil => exact absurd rfl filled
  | cons first rest ih =>
    cases rest with
    | nil =>
      simp only [firstOf, or_else_fail]
      exact first
    | cons second others => exact local_or_else first (ih (List.cons_ne_nil _ _))

theorem local_optional {left right : Recognizer α} (given : Local size twinSize least left right) :
    Local size twinSize 0 (optional left) (optional right) :=
  local_or_else ((local_map some given).mono (Nat.le_refl _) (Nat.le_refl _) (Nat.zero_le _)) (local_pure none)

theorem steady_up_to {inner : Recognizer α} (given : Steady size least inner) (bound : Nat) :
    Steady size 0 (upTo inner bound) := by
  induction bound with
  | zero => exact steady_pure []
  | succ bound ih =>
    refine steady_or_else ?_ (steady_pure [])
    have rest (value : α) := steady_bind ih fun others => steady_pure (value :: others)
    have whole := steady_bind given fun value => (rest value).mono (Nat.sub_le _ _) (Nat.le_refl _)
    exact whole.mono (Nat.le_refl _) (Nat.zero_le _)

-- Each round takes a token, so a bound above the number of tokens is never reached.
theorem local_up_to {left right : Recognizer α} (given : Local size twinSize 1 left right) (bound twinBound : Nat) :
    Local (min size bound) (min twinSize twinBound) 0 (upTo left bound) (upTo right twinBound) := by
  induction bound generalizing twinBound with
  | zero =>
    refine ⟨(steady_up_to given.steady 0).mono (Nat.min_le_left _ _) (Nat.le_refl _),
      (steady_up_to given.twinSteady twinBound).mono (Nat.min_le_left _ _) (Nat.le_refl _), ?_⟩
    intro bound cursor twin before
    omega
  | succ bound ih =>
    cases twinBound with
    | zero =>
      refine ⟨(steady_up_to given.steady _).mono (Nat.min_le_left _ _) (Nat.le_refl _),
        (steady_up_to given.twinSteady 0).mono (Nat.min_le_left _ _) (Nat.le_refl _), ?_⟩
      intro bound cursor twin _ behind
      omega
    | succ twinBound =>
      refine local_or_else ?_ (local_pure [])
      have first := given.mono (Nat.min_le_left size (bound + 1)) (Nat.min_le_left twinSize (twinBound + 1)) (Nat.le_refl 1)
      have rest (value : α) := local_map (value :: ·) (ih twinBound)
      have whole := local_sequence first fun value => (rest value).mono (by omega) (by omega) (Nat.le_refl 0)
      exact whole.mono (Nat.le_refl _) (Nat.le_refl _) (Nat.zero_le _)

theorem steady_many {inner : Recognizer α} (given : Steady size least inner) : Steady size 0 (many inner) where
  moves cursor := (steady_up_to given _).moves cursor
  tells cursor := (steady_up_to given _).tells cursor

theorem local_many {left right : Recognizer α} (given : Local size twinSize 1 left right) :
    Local size twinSize 0 (many left) (many right) where
  steady := steady_many given.steady
  twinSteady := steady_many given.twinSteady
  agrees bound cursor twin before behind :=
    (local_up_to given _ _).agrees bound cursor twin (by omega) (by omega)

section

variable {left right : Recognizer α} {separator : Recognizer Unit}

theorem local_separated (given : Local size twinSize 1 left right) (between : Local size twinSize 1 separator separator) :
    Local size twinSize 1 (separated left separator) (separated right separator) := by
  apply local_bind given
  intro first
  have further : Local size twinSize 1 (separator >>= fun _ => left) (separator >>= fun _ => right) :=
    local_lead between fun _ => given
  exact local_map (first :: ·) (local_many further)

theorem local_separated_or_none (given : Local size twinSize 1 left right)
    (between : Local size twinSize 1 separator separator) :
    Local size twinSize 0 (separatedOrNone left separator) (separatedOrNone right separator) :=
  local_or_else ((local_separated given between).mono (Nat.le_refl _) (Nat.le_refl _) (Nat.zero_le _)) (local_pure [])

end

theorem steady_spanned {inner : Recognizer α} (given : Steady size least inner) : Steady size least (spanned inner) where
  moves cursor value behind found := by
    simp only [spanned, Option.map_eq_some_iff, Prod.exists, Prod.mk.injEq] at found
    obtain ⟨inside, after, read, -, rfl⟩ := found
    exact given.moves cursor inside after read
  tells cursor short failed := by
    simp only [spanned, Option.map_eq_none_iff] at failed
    exact given.tells cursor short failed

-- A span begins with the first token that was taken, so there has to be one.
theorem local_spanned {left right : Recognizer α} (given : Local size twinSize 1 left right) :
    Local size twinSize 1 (spanned left) (spanned right) where
  steady := steady_spanned given.steady
  twinSteady := steady_spanned given.twinSteady
  agrees bound cursor twin before behind agree within := by
    obtain ⟨stalls, results⟩ := within
    have inside : (left cursor).Within bound := by
      refine ⟨stalls, fun found read => ?_⟩
      exact results ((found.1, _), found.2) (Option.mem_map_of_mem _ read)
    have same := given.agrees bound cursor twin before behind agree inside
    refine ⟨same.stall, fun failed => ?_, fun value after found => ?_⟩
    · simp only [spanned, Option.map_eq_none_iff] at failed ⊢
      exact same.failed failed
    · simp only [spanned, Option.map_eq_some_iff, Prod.exists, Prod.mk.injEq] at found
      obtain ⟨inner, place, read, rfl, rfl⟩ := found
      have heads := agree.head (given.steady.inside before inside)
      obtain ⟨twinPlace, other, agreeing⟩ := same.found inner place read
      refine ⟨twinPlace, ?_, agreeing⟩
      simp only [spanned, other, Option.map_some]
      rw [heads, agree.offset, agreeing.offset]

theorem local_spanned_bind {left right : Recognizer α} {next after : α × Span → Recognizer β}
    (given : Local size twinSize 1 left right)
    (others : ∀ value span, Local size twinSize more (next (value, span)) (after (value, span))) :
    Local size twinSize 1 (spanned left >>= next) (spanned right >>= after) :=
  local_bind (local_spanned given) fun found => others found.1 found.2

end Recognizer

end PipeSql

import PipeSql.Proofs.Dialect.Spells
import PipeSql.Proofs.Text.Clean

set_option autoImplicit false

namespace PipeSql

open Text

theorem Piece.split_other {c : Char} {chars : List Char} {pieces : List Piece}
    (found : split chars = .other c :: pieces) : ∃ rest, chars = c :: rest ∧ pieces = split rest := by
  cases chars with
  | nil => simp [split] at found
  | cons d rest =>
    cases split_first found
    rw [split] at found
    split at found
    · cases found
    · split at found
      · cases found
      · split at found
        · cases found
        · cases found
          exact ⟨rest, rfl, rfl⟩

namespace Text

variable {allowed : Allowance}

theorem clean_tail {c : Char} {rest : List Char} (clean : Clean allowed (c :: rest)) (quote : c ≠ '\'') (mark : c ≠ '@') :
    Clean allowed rest := by
  cases clean with
  | other c rest quote mark dashes clean => exact clean
  | parameter => exact absurd rfl mark
  | literal => exact absurd rfl quote

theorem clean_drop {chars : List Char} (clean : Clean allowed chars) : Clean allowed (chars.dropWhile isNamePart) := by
  induction chars with
  | nil => exact .nil
  | cons c rest ih =>
    rw [List.dropWhile_cons]
    by_cases part : isNamePart c = true
    · rw [if_pos part]
      apply ih (clean_tail clean _ _)
      · rintro rfl
        exact absurd part (by decide)
      · rintro rfl
        exact absurd part (by decide)
    · rw [if_neg part]
      exact clean

end Text

namespace Dialect

variable {allowed : Allowance} (dialect : Dialect)

theorem renamed_leads {function name : String} (renamed : dialect.rename? function = some name) :
    leads name.toList = true := by
  unfold rename? at renamed
  split at renamed
  all_goals cases renamed
  all_goals decide

theorem concat_leads : leads dialect.spelling.concat.toList = true := by
  cases dialect <;> decide

-- A character that begins no name and no operator begins the respelled text if and only if it begins the text.
theorem write_head (qualified : Bool) (chars : List Char) {d : Char} (start : isNameStart d = false) (bar : d ≠ '|')
    (plus : d ≠ '+') :
    (dialect.spelling.write qualified (Piece.split chars)).head? = some d ↔ chars.head? = some d := by
  cases chars with
  | nil => simp [Piece.split, Spelling.write]
  | cons c rest =>
    obtain ⟨first, others, written, begins⟩ := write_first dialect qualified c rest
    rw [written, List.head?_cons, List.head?_cons, Option.some_inj, Option.some_inj]
    rcases begins with rfl | ⟨named, renamed⟩ | ⟨rfl, rfl⟩
    · exact Iff.rfl
    · constructor
      · rintro rfl
        exact absurd renamed (by simp [start])
      · rintro rfl
        exact absurd named (by simp [start])
    · exact ⟨fun same => absurd same.symm plus, fun same => absurd same.symm bar⟩

theorem write_halts (qualified : Bool) {chars : List Char} (halts : Halts chars) :
    Halts (dialect.spelling.write qualified (Piece.split chars)) := by
  cases chars with
  | nil =>
    rw [Piece.split, Spelling.write]
    exact halts_nil
  | cons c rest =>
    have stop := halts c rfl
    have head : (dialect.spelling.write qualified (Piece.split (c :: rest))).head? = some c := by
      rcases stop with rfl | rfl | rfl
      all_goals exact (write_head dialect qualified _ (by decide) (by decide) (by decide)).2 rfl
    intro d found
    rw [head] at found
    cases found
    exact stop

-- Behind a name of a parameter no list of arguments begins.
theorem parameter_kept (word : List Char) {rest : List Char} (halts : Halts rest) :
    dialect.spelling.renamed? false word (Piece.split rest) = none := by
  cases renamed : dialect.spelling.renamed? false word (Piece.split rest) with
  | none => rfl
  | some name =>
    obtain ⟨⟨others, called⟩, -⟩ := Spelling.renamed_call _ renamed
    obtain ⟨_, rfl, -⟩ := Piece.split_other called
    exact absurd rfl (halts_head halts (by decide))

-- A word is kept or renamed, and a renamed one may lose its empty argument list.
theorem write_word_clean {qualified : Bool} {word rest : List Char} (sound : isWord word = true)
    (clean : Clean allowed rest)
    (written : ∀ others : List Char, others.length ≤ rest.length → Clean allowed others →
      Clean allowed (dialect.spelling.write false (Piece.split others))) :
    Clean allowed (dialect.spelling.write qualified (.word word :: Piece.split rest)) := by
  have whole := written rest (Nat.le_refl _) clean
  cases renamed : dialect.spelling.renamed? qualified word (Piece.split rest) with
  | none =>
    rw [Spelling.write_kept _ _ renamed]
    exact leads_clean (leads_word sound) whole
  | some name =>
    obtain ⟨-, function, found⟩ := Spelling.renamed_call _ renamed
    have spelled := renamed_leads dialect found
    by_cases emptied : ∃ others, Piece.split rest = .other '(' :: .other ')' :: others
    · obtain ⟨others, called⟩ := emptied
      obtain ⟨inside, rfl, closing⟩ := Piece.split_other called
      obtain ⟨after, rfl, rfl⟩ := Piece.split_other closing.symm
      have next := clean_tail (clean_tail clean (by decide) (by decide)) (by decide) (by decide)
      have shorter : after.length ≤ ('(' :: ')' :: after).length := Nat.le_add_right _ 2
      have later := written after shorter next
      rw [called] at renamed ⊢
      rw [Spelling.write_emptied _ _ renamed, List.append_assoc]
      apply leads_clean spelled
      by_cases bare : Spelling.isBare name = true
      · rw [if_pos bare]
        exact later
      · rw [if_neg bare]
        exact leads_clean (by decide) later
    · rw [Spelling.write_renamed _ _ (fun others same => emptied ⟨others, same⟩) renamed]
      exact leads_clean spelled whole

theorem write_clean (qualified : Bool) {chars : List Char} (clean : Clean allowed chars) :
    Clean allowed (dialect.spelling.write qualified (Piece.split chars)) := by
  generalize bound : chars.length = size
  induction size using Nat.strongRecOn generalizing chars qualified with
  | ind size ih =>
    cases clean with
    | nil =>
      rw [Piece.split, Spelling.write]
      exact .nil
    | literal value rest closed clean =>
      simp only [List.length_cons, List.length_append] at bound
      have shorter := ih rest.length (by omega) false clean rfl
      have opened := (write_head dialect false rest (d := '\'') (by decide) (by decide) (by decide)).not.2 closed
      rw [Piece.split_literal, Piece.literal_end_quoted, Piece.literal_end_closing rest closed, Spelling.write,
        List.cons_append, List.append_assoc]
      exact .literal value _ opened shorter
    | parameter name rest word known halts clean =>
      simp only [List.length_cons, List.length_append] at bound
      have shorter := ih rest.length (by omega) false clean rfl
      have marked : Piece.split ('@' :: (name ++ rest)) = .other '@' :: .word name :: Piece.split rest := by
        rw [Piece.split, ← Piece.split_word word (halts_breaks halts)]
        rfl
      rw [marked, Spelling.write]
      change Clean allowed ('@' :: dialect.spelling.write false (.word name :: Piece.split rest))
      rw [Spelling.write_kept _ _ (parameter_kept dialect name halts)]
      exact .parameter name _ word known (write_halts dialect false halts) shorter
    | other c rest quote mark dashes clean =>
      simp only [List.length_cons] at bound
      rw [Piece.split, if_neg quote]
      by_cases bars : c = '|' ∧ rest.head? = some '|'
      · rw [if_pos bars, Spelling.write]
        obtain ⟨-, head⟩ := bars
        cases rest with
        | nil => cases head
        | cons d rest =>
          cases head
          simp only [List.length_cons] at bound
          have shorter := ih rest.length (by omega) false (clean_tail clean (by decide) (by decide)) rfl
          exact leads_clean (concat_leads dialect) shorter
      · rw [if_neg bars]
        by_cases start : isNameStart c = true
        · have fewer := (List.dropWhile_suffix isNamePart (l := rest)).length_le
          rw [if_pos start]
          exact write_word_clean dialect (Token.is_word_take c rest start) (clean_drop clean) fun others short known =>
            ih others.length (by omega) false known rfl
        · rw [if_neg start, Spelling.write]
          have shorter := ih rest.length (by omega) (c == '.') clean rfl
          refine .other c _ quote mark (fun dash next => dashes dash ?_) shorter
          exact (write_head dialect _ rest (by decide) (by decide) (by decide)).1 next

theorem respell_clean {text : String} (clean : Clean allowed text.toList) :
    Clean allowed (dialect.respell text).toList := by
  rw [respell_chars]
  exact write_clean dialect false clean

end Dialect

end PipeSql

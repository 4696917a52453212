import PipeSql.Proofs.Token.Tiled
import PipeSql.Script.Screen

set_option autoImplicit false

namespace PipeSql.Screen

structure Blanks (chars shown : List Char) : Prop where
  blank : ∀ c ∈ shown, Text.isBlank c = true
  width : Text.width shown = Text.width chars

theorem blanks_nil : Blanks [] [] :=
  ⟨fun _ member => absurd member List.not_mem_nil, rfl⟩

theorem blanks_append {first second shown more : List Char} (left : Blanks first shown) (right : Blanks second more) :
    Blanks (first ++ second) (shown ++ more) where
  blank c member := (List.mem_append.1 member).elim (left.blank c) (right.blank c)
  width := by rw [Text.width_append, Text.width_append, left.width, right.width]

theorem blanks_self {c : Char} (blank : Text.isBlank c = true) : Blanks [c] [c] where
  blank d member := by rw [List.mem_singleton.1 member, blank]
  width := rfl

theorem width_replicate (n : Nat) : Text.width (List.replicate n ' ') = n := by
  induction n with
  | zero => rfl
  | succ n ih =>
    rw [List.replicate_succ, Text.width, ih, Nat.add_comm]
    rfl

theorem blanks_char (c : Char) : Blanks [c] (blanks c) := by
  unfold blanks
  split
  · rename_i same
    rw [same]
    exact blanks_self (by decide)
  · refine ⟨fun d member => ?_, ?_⟩
    · rw [List.eq_of_mem_replicate member]
      decide
    · rw [width_replicate]
      rfl

theorem width_eq_zero (chars : List Char) : Text.width chars = 0 ↔ chars = [] := by
  cases chars with
  | nil => exact ⟨fun _ => rfl, fun _ => rfl⟩
  | cons c rest =>
    have positive := c.utf8Size_pos
    simp only [Text.width, reduceCtorEq, iff_false]
    omega

theorem blanks_empty {chars shown : List Char} (blanked : Blanks chars shown) : shown = [] ↔ chars = [] := by
  rw [← width_eq_zero shown, ← width_eq_zero chars, blanked.width]

def regionOf (inComment : Bool) : Region :=
  if inComment then .comment else .code

theorem blank_out_gap (inComment : Bool) (chars : List Char) :
    ∃ shown, blankOut (regionOf inComment) chars = shown ++ blankOut .code (Token.gap inComment chars).2 ∧
      Blanks (Token.gap inComment chars).1 shown := by
  induction chars generalizing inComment with
  | nil => exact ⟨[], rfl, blanks_nil⟩
  | cons c rest ih =>
    -- one character of the gap, and whether a comment goes on behind it
    have further (piece : List Char) (next : Bool) (blanked : Blanks [c] piece)
        (shown : blankOut (regionOf inComment) (c :: rest) = piece ++ blankOut (regionOf next) rest)
        (skipped : Token.gap inComment (c :: rest) = (c :: (Token.gap next rest).1, (Token.gap next rest).2)) :
        ∃ shown, blankOut (regionOf inComment) (c :: rest) =
            shown ++ blankOut .code (Token.gap inComment (c :: rest)).2 ∧
          Blanks (Token.gap inComment (c :: rest)).1 shown := by
      obtain ⟨more, same, others⟩ := ih next
      refine ⟨piece ++ more, ?_, ?_⟩
      · rw [shown, same, skipped, List.append_assoc]
      · rw [skipped]
        exact blanks_append blanked others
    cases inComment with
    | true =>
      by_cases newline : c = '\n'
      · subst newline
        exact further ['\n'] false (blanks_self (by decide)) rfl rfl
      · refine further (blanks c) true (blanks_char c) ?_ ?_
        · simp [blankOut, regionOf, Region.step, newline]
        · have going : (c != '\n') = true := bne_iff_ne.2 newline
          simp [Token.gap, going]
    | false =>
      by_cases blank : Text.isBlank c = true
      · refine further [c] false (blanks_self blank) ?_ (by simp [Token.gap, blank])
        have dash : c ≠ '-' := by
          rintro rfl
          cases blank
        have quote : c ≠ '\'' := by
          rintro rfl
          cases blank
        simp [blankOut, regionOf, Region.step, dash, quote]
      · by_cases dashes : c = '-' ∧ rest.head? = some '-'
        · refine further (blanks c) true (blanks_char c) ?_ ?_
          · simp [blankOut, regionOf, Region.step, dashes]
          · rw [dashes.1] at blank
            simp [Token.gap, blank, dashes]
        · refine ⟨[], ?_, ?_⟩
          · simp [Token.gap, blank, dashes, regionOf]
          · simp [Token.gap, blank, dashes, blanks_nil]

theorem blank_out_literal {chars value raw after : List Char}
    (closed : Token.literal? chars = some (value, raw, after)) :
    ∃ shown, blankOut .literal chars = shown ++ blankOut .code after ∧ Blanks raw shown := by
  induction chars using Token.literal?.induct generalizing value raw after with
  | case1 => simp [Token.literal?] at closed
  | case2 rest ih =>
    simp only [Token.literal?, Option.map_eq_some_iff, Prod.exists, Prod.mk.injEq] at closed
    obtain ⟨value, raw, after, inner, -, rfl, rfl⟩ := closed
    obtain ⟨shown, same, blanked⟩ := ih inner
    refine ⟨blanks '\'' ++ (blanks '\'' ++ shown), ?_,
      blanks_append (blanks_char _) (blanks_append (blanks_char _) blanked)⟩
    simp [blankOut, Region.step, same]
  | case3 rest other =>
    simp only [Token.literal?, if_true, Option.some.injEq, Prod.mk.injEq] at closed
    obtain ⟨-, rfl, rfl⟩ := closed
    have single : rest.head? ≠ some '\'' := by
      cases rest with
      | nil => simp
      | cons d beyond =>
        intro same
        cases same
        exact other beyond rfl rfl
    exact ⟨blanks '\'', by simp [blankOut, Region.step, single], blanks_char _⟩
  | case4 c rest other notQuote ih =>
    simp only [Token.literal?, notQuote, if_false, Option.map_eq_some_iff, Prod.exists, Prod.mk.injEq] at closed
    obtain ⟨value, raw, after, inner, -, rfl, rfl⟩ := closed
    obtain ⟨shown, same, blanked⟩ := ih inner
    refine ⟨blanks c ++ shown, ?_, blanks_append (blanks_char c) blanked⟩
    simp [blankOut, Region.step, notQuote, same]

theorem blank_out_quiet {text : List Char} (after : List Char) (quote : '\'' ∉ text) (dash : '-' ∉ text) :
    blankOut .code (text ++ after) = text ++ blankOut .code after := by
  induction text with
  | nil => rfl
  | cons c rest ih =>
    rw [List.mem_cons, not_or] at quote dash
    have kept : Region.step .code c (rest ++ after).head? = (false, .code) := by
      simp [Region.step, Ne.symm quote.1, Ne.symm dash.1]
    rw [List.cons_append, blankOut, kept]
    simp [ih quote.2 dash.2]

-- What is shown of a token: blanks for a string, and else the token as it was read.
inductive Shown : Token → List Char → List Char → Prop where
  | string (value : String) {text shown : List Char} (blanked : Blanks text shown) : Shown (.str value) text shown
  | token {token : Token} (text : List Char) (plain : ∀ value, token ≠ .str value) : Shown token text text

theorem Shown.width {token : Token} {text shown : List Char} (known : Shown token text shown) :
    Text.width shown = Text.width text := by
  cases known with
  | string value blanked => exact blanked.width
  | token => rfl

theorem blank_out_token {chars skipped text after : List Char} {token : Token}
    (gap : Token.gap false chars = (skipped, text ++ after))
    (found : Token.scan (text ++ after) = .found token text after) :
    ∃ shown, blankOut .code (text ++ after) = shown ++ blankOut .code after ∧ Shown token text shown := by
  have spelled := Token.scan_spelled found
  by_cases string : ∃ value, token = .str value
  · obtain ⟨value, rfl⟩ := string
    obtain ⟨raw, rfl⟩ := spelled
    obtain ⟨inner, -, closed⟩ := Token.literal_closed found
    obtain ⟨shown, same, blanked⟩ := blank_out_literal closed
    refine ⟨blanks '\'' ++ shown, ?_, .string value (blanks_append (blanks_char '\'') blanked)⟩
    rw [List.append_assoc, ← same]
    rfl
  · have plain : ∀ value, token ≠ .str value := fun value same => string ⟨value, same⟩
    obtain ⟨quote, dash⟩ := Token.spelled_quiet spelled plain
    refine ⟨text, ?_, .token text plain⟩
    rcases dash with dash | rfl
    · exact blank_out_quiet after quote dash
    · have single := (Token.gap_stops false chars (congrArg Prod.snd gap)).2
      have alone : after.head? ≠ some '-' := fun dashes => single ⟨rfl, dashes⟩
      simp [blankOut, Region.step, alone]

theorem blank_out_opens {offset : Nat} {chars : List Char} {lexeme : Lexeme} {skipped text after : List Char}
    (opens : Lexeme.Opens offset chars lexeme skipped text after) :
    ∃ blank shown, blankOut .code chars = blank ++ (shown ++ blankOut .code after) ∧ Blanks skipped blank ∧
      Shown lexeme.token text shown := by
  obtain ⟨blank, gapShown, blanked⟩ := blank_out_gap false chars
  obtain ⟨shown, tokenShown, known⟩ := blank_out_token opens.gap opens.scanned
  rw [opens.gap] at gapShown blanked
  refine ⟨blank, shown, ?_, blanked, known⟩
  rw [← tokenShown]
  exact gapShown

theorem shown_opens {offset : Nat} {chars : List Char} {lexeme : Lexeme} {skipped text after : List Char}
    (opens : Lexeme.Opens offset chars lexeme skipped text after) (plain : ∀ value, lexeme.token ≠ .str value) :
    ∃ blank, blankOut .code chars = blank ++ (text ++ blankOut .code after) ∧ Blanks skipped blank := by
  obtain ⟨blank, shown, same, blanked, known⟩ := blank_out_opens opens
  obtain ⟨token, span⟩ := lexeme
  cases known with
  | string value => exact absurd rfl (plain value)
  | token => exact ⟨blank, same, blanked⟩

-- What is shown of some tokens ends in the last of them, unless it is a string.
structure EndsIn (front : List Lexeme) (stop : Nat) (shown after : List Char) : Prop where
  empty : front = [] → shown = []
  last : ∀ last ∈ front.getLast?, last.span.stop = stop ∧ ((∃ value, last.token = .str value) ∨
    ∃ earlier text, shown = earlier ++ text ∧ Token.scan (text ++ after) = .found last.token text after)

theorem read_split {offset : Nat} {chars : List Char} (front : List Lexeme) {others : List Lexeme}
    (accepted : Lexeme.read offset chars = .ok (front ++ others)) :
    ∃ before after shown, chars = before ++ after ∧ Lexeme.read (offset + Text.width before) after = .ok others ∧
      blankOut .code chars = shown ++ blankOut .code after ∧ Text.width shown = Text.width before ∧
      EndsIn front (offset + Text.width before) shown after := by
  induction front generalizing offset chars with
  | nil => exact ⟨[], chars, [], rfl, accepted, rfl, rfl, fun _ => rfl, fun last member => by cases member⟩
  | cons lexeme front ih =>
    obtain ⟨skipped, text, after, opens, inner⟩ := Lexeme.read_cons accepted
    obtain ⟨before, behind, more, rfl, rest, same, width, empty, closed⟩ := ih inner
    obtain ⟨blank, shown, shownSame, blanked, known⟩ := blank_out_opens opens
    have stop : lexeme.span.stop + Text.width before = offset + Text.width (skipped ++ (text ++ before)) := by
      rw [opens.stop, opens.start, Text.width_append, Text.width_append]
      omega
    refine ⟨skipped ++ (text ++ before), behind, blank ++ (shown ++ more), ?_, ?_, ?_, ?_, ?_, ?_⟩
    · simpa using opens.whole
    · rw [← stop]
      exact rest
    · rw [shownSame, same]
      simp
    · simp only [Text.width_append, blanked.width, known.width, width]
    · simp
    · intro last member
      rw [← stop]
      cases front with
      | nil =>
        obtain rfl := empty rfl
        obtain rfl := (width_eq_zero before).1 width.symm
        cases member
        refine ⟨rfl, ?_⟩
        obtain ⟨token, span⟩ := lexeme
        cases known with
        | string value => exact .inl ⟨value, rfl⟩
        | token => exact .inr ⟨blank, text, by simp, opens.scanned⟩
      | cons next front =>
        obtain ⟨ended, kinds⟩ := closed last member
        refine ⟨ended, kinds.imp_right ?_⟩
        rintro ⟨earlier, text, rfl, scanned⟩
        exact ⟨blank ++ (shown ++ earlier), text, by simp, scanned⟩

end PipeSql.Screen

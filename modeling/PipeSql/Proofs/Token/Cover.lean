import Mathlib.Data.List.Basic
import PipeSql.Proofs.Token.Stopped

set_option autoImplicit false

namespace PipeSql

namespace Text

-- What may stand outside of tokens: blanks, and comments that go on to the next line break. In a final stretch the
-- last comment may go on to the end.
inductive Skipped (final : Prop) : List Char → Prop where
  | nil : Skipped final []
  | blank (c : Char) (rest : List Char) (blank : isBlank c = true) (behind : Skipped final rest) :
      Skipped final (c :: rest)
  | comment (body rest : List Char) (line : '\n' ∉ body) (ends : rest.head? = some '\n' ∨ rest = [] ∧ final)
      (behind : Skipped final rest) : Skipped final ('-' :: '-' :: body ++ rest)

theorem skipped_mono {weak strong : Prop} (implied : strong → weak) {chars : List Char} (skipped : Skipped strong chars) :
    Skipped weak chars := by
  induction skipped with
  | nil => exact .nil
  | blank c rest blank _ ih => exact .blank c rest blank ih
  | comment body rest line ends _ ih => exact .comment body rest line (ends.imp_right (And.imp_right implied)) ih

-- What follows the first dash of a comment: the rest of its line, and then what may stand outside of tokens.
def Commented (final : Prop) (chars : List Char) : Prop :=
  ∃ body rest, chars = body ++ rest ∧ '\n' ∉ body ∧ (rest.head? = some '\n' ∨ rest = [] ∧ final) ∧ Skipped final rest

section

variable {final : Prop} {chars : List Char}

theorem commented_cons {c : Char} (inside : c ≠ '\n') (commented : Commented final chars) :
    Commented final (c :: chars) := by
  obtain ⟨body, rest, rfl, line, ends, behind⟩ := commented
  refine ⟨c :: body, rest, rfl, ?_, ends, behind⟩
  rw [List.mem_cons, not_or]
  exact ⟨Ne.symm inside, line⟩

theorem commented_line (skipped : Skipped final chars) : Commented final ('\n' :: chars) :=
  ⟨[], '\n' :: chars, rfl, List.not_mem_nil, .inl rfl, .blank _ _ (by decide) skipped⟩

theorem skipped_dashes (commented : Commented final ('-' :: chars)) : Skipped final ('-' :: '-' :: chars) := by
  obtain ⟨body, rest, same, line, ends, behind⟩ := commented
  cases body with
  | nil =>
    rw [List.nil_append] at same
    rw [← same] at ends
    rcases ends with newline | ⟨empty, -⟩
    · cases newline
    · cases empty
  | cons d body =>
    obtain ⟨rfl, rfl⟩ := List.cons.inj same
    rw [List.mem_cons, not_or] at line
    exact .comment body rest line.2 ends behind

end

theorem width_eq (chars : List Char) : width chars = (String.ofList chars).utf8ByteSize := by
  induction chars with
  | nil => rfl
  | cons c rest ih =>
    rw [width, ih, String.ofList_cons, String.utf8ByteSize_append, String.utf8ByteSize_singleton]

theorem source_width (source : String) : width source.toList = source.utf8ByteSize := by
  rw [width_eq, String.ofList_toList]

-- The end of a front part is a place between two characters.
theorem boundary_split {source : String} {before after : List Char} (whole : source.toList = before ++ after) :
    String.Pos.Raw.IsValid source ⟨width before⟩ := by
  refine String.Pos.Raw.isValid_iff_exists_append.2 ⟨String.ofList before, String.ofList after, ?_, ?_⟩
  · rw [← String.ofList_append, ← whole, String.ofList_toList]
  · rw [width_eq]
    rfl

end Text

namespace Token

section

variable {c : Char}

theorem gap_blank (blank : Text.isBlank c = true) (rest : List Char) :
    gap false (c :: rest) = (c :: (gap false rest).1, (gap false rest).2) := by
  rw [gap, if_neg (by decide), if_pos blank]

theorem gap_dashes (rest : List Char) :
    gap false ('-' :: '-' :: rest) = ('-' :: (gap true ('-' :: rest)).1, (gap true ('-' :: rest)).2) := by
  rw [gap, if_neg (by decide), if_neg (by decide), if_pos ⟨rfl, rfl⟩]

theorem gap_stopped {rest : List Char} (visible : ¬Text.isBlank c = true) (single : ¬(c = '-' ∧ rest.head? = some '-')) :
    gap false (c :: rest) = ([], c :: rest) := by
  rw [gap, if_neg (by decide), if_neg visible, if_neg single]

theorem gap_inside (inside : c ≠ '\n') (rest : List Char) :
    gap true (c :: rest) = (c :: (gap true rest).1, (gap true rest).2) := by
  rw [gap, if_pos rfl, bne_iff_ne.2 inside]

theorem gap_line (rest : List Char) : gap true ('\n' :: rest) = ('\n' :: (gap false rest).1, (gap false rest).2) :=
  rfl

end

theorem gap_skipped (chars : List Char) :
    Text.Skipped ((gap false chars).2 = []) (gap false chars).1 ∧
      Text.Commented ((gap true chars).2 = []) (gap true chars).1 := by
  induction chars with
  | nil => exact ⟨.nil, [], [], rfl, List.not_mem_nil, .inr ⟨rfl, rfl⟩, .nil⟩
  | cons c rest ih =>
    obtain ⟨outside, commented⟩ := ih
    constructor
    · by_cases blank : Text.isBlank c = true
      · rw [gap_blank blank]
        exact .blank c _ blank outside
      · by_cases dashes : c = '-' ∧ rest.head? = some '-'
        · -- the second dash is the first character inside of the comment
          obtain ⟨rfl, second⟩ := dashes
          obtain ⟨others, rfl⟩ := List.head?_eq_some_iff.1 second
          rw [gap_dashes]
          rw [gap_inside (by decide)] at commented ⊢
          exact Text.skipped_dashes commented
        · rw [gap_stopped blank dashes]
          exact .nil
    · by_cases newline : c = '\n'
      · subst newline
        rw [gap_line]
        exact Text.commented_line outside
      · rw [gap_inside newline]
        exact Text.commented_cons newline commented

theorem literal_alone {chars value raw after : List Char} (closed : literal? chars = some (value, raw, after)) :
    literal? raw = some (value, raw, []) := by
  induction chars using literal?.induct generalizing value raw after with
  | case1 => simp [literal?] at closed
  | case2 rest ih =>
    simp only [literal?, Option.map_eq_some_iff, Prod.exists, Prod.mk.injEq] at closed
    obtain ⟨value', raw', after', inner, rfl, rfl, rfl⟩ := closed
    rw [literal?, ih inner]
    rfl
  | case3 rest other =>
    simp only [literal?, if_true, Option.some.injEq, Prod.mk.injEq] at closed
    obtain ⟨rfl, rfl, rfl⟩ := closed
    rfl
  | case4 c rest other notQuote ih =>
    simp only [literal?, notQuote, if_false, Option.map_eq_some_iff, Prod.exists, Prod.mk.injEq] at closed
    obtain ⟨value', raw', after', inner, rfl, rfl, rfl⟩ := closed
    simp [literal?, notQuote, ih inner]

-- The longest token at the front of a text is also the longest one of its own characters.
theorem scan_alone {chars text after : List Char} {token : Token} (found : scan chars = .found token text after) :
    scan text = .found token text [] := by
  have spelled := scan_spelled found
  by_cases string : ∃ value, token = .str value
  · obtain ⟨value, rfl⟩ := string
    obtain ⟨raw, rfl⟩ := spelled
    rw [← (scan_append found).1] at found
    obtain ⟨inner, rfl, closed⟩ := literal_closed found
    exact scan_quote (literal_alone closed)
  · have plain : ∀ value, token ≠ .str value := fun value same => string ⟨value, same⟩
    have scanned := scan_stopped spelled (scan_sound _ _ _ _ found) plain (ends_before_nil token)
    rwa [List.append_nil] at scanned

theorem gap_alone {chars skipped text after : List Char} (gap : gap false chars = (skipped, text ++ after)) :
    Token.gap false text = ([], text) := by
  cases text with
  | nil => rfl
  | cons c rest =>
    obtain ⟨visible, single⟩ := gap_stops false chars (congrArg Prod.snd gap)
    have alone : ¬ (c = '-' ∧ rest.head? = some '-') := by
      rintro ⟨dash, second⟩
      have both : (rest ++ after).head? = some '-' := by
        rw [List.head?_append, second]
        rfl
      exact single ⟨dash, both⟩
    exact gap_stopped (by rw [visible]; decide) alone

end Token

namespace Lexeme

theorem read_nil {offset : Nat} {chars : List Char} (accepted : read offset chars = .ok []) :
    (Token.gap false chars).2 = [] := by
  rw [read_round] at accepted
  split at accepted
  · assumption
  · split at accepted
    · cases accepted
    · rename_i token text after found
      cases inner : read (offset + Text.width (Token.gap false chars).1 + Text.width text) after with
      | error fault =>
        rw [inner] at accepted
        cases accepted
      | ok others =>
        rw [inner] at accepted
        cases accepted

theorem Opens.filled {offset : Nat} {chars : List Char} {lexeme : Lexeme} {skipped text after : List Char}
    (opens : Opens offset chars lexeme skipped text after) : text ≠ [] :=
  (Token.scan_append opens.scanned).2

theorem Opens.alone {offset : Nat} {chars : List Char} {lexeme : Lexeme} {skipped text after : List Char}
    (opens : Opens offset chars lexeme skipped text after) :
    read 0 text = .ok [⟨lexeme.token, ⟨0, Text.width text⟩⟩] := by
  have scanned := Token.scan_alone opens.scanned
  have nothing (offset : Nat) : read offset [] = .ok [] := by
    rw [read_round]
    rfl
  have start : 0 + Text.width [] = 0 := rfl
  obtain ⟨c, rest, same⟩ := List.exists_cons_of_ne_nil opens.filled
  rw [read_round, Token.gap_alone opens.gap, start]
  rw [same] at scanned ⊢
  simp only [scanned]
  rw [nothing, Nat.zero_add]
  rfl

theorem Opens.skipped {offset : Nat} {chars : List Char} {lexeme : Lexeme} {skipped text after : List Char}
    (opens : Opens offset chars lexeme skipped text after) (final : Prop) : Text.Skipped final skipped := by
  have outside := (Token.gap_skipped chars).1
  rw [opens.gap] at outside
  refine Text.skipped_mono (fun ended => ?_) outside
  exact absurd (List.append_eq_nil_iff.1 ended).1 opens.filled

-- A token covers some characters of the source, and read on their own they are this token.
structure Placed (source : String) (lexeme : Lexeme) : Prop where
  filled : lexeme.span.start < lexeme.span.stop
  start : String.Pos.Raw.IsValid source ⟨lexeme.span.start⟩
  stop : String.Pos.Raw.IsValid source ⟨lexeme.span.stop⟩
  inside : lexeme.span.stop ≤ source.utf8ByteSize
  alone : tokenize (lexeme.span.textIn source) =
    .ok [⟨lexeme.token, ⟨0, lexeme.span.stop - lexeme.span.start⟩⟩]

theorem Opens.placed {source : String} {before chars : List Char} {lexeme : Lexeme} {skipped text after : List Char}
    (whole : source.toList = before ++ chars) (opens : Opens (Text.width before) chars lexeme skipped text after) :
    lexeme.Placed source := by
  have start : lexeme.span.start = Text.width (before ++ skipped) := by rw [opens.start, Text.width_append]
  have stop : lexeme.span.stop = Text.width (before ++ skipped ++ text) := by
    rw [opens.stop, start, Text.width_append _ text]
  have split : source.toList = before ++ skipped ++ (text ++ after) := by
    rw [whole, opens.whole, List.append_assoc]
  have length : lexeme.span.stop - lexeme.span.start = Text.width text := by rw [opens.stop, Nat.add_sub_cancel_left]
  constructor
  · have positive : Text.width text ≠ 0 := by
      cases text with
      | nil => exact absurd rfl opens.filled
      | cons c rest =>
        have positive := c.utf8Size_pos
        rw [Text.width]
        omega
    rw [opens.stop]
    omega
  · rw [start]
    exact Text.boundary_split split
  · rw [stop]
    rw [← List.append_assoc] at split
    exact Text.boundary_split split
  · have total := congrArg Text.width split
    rw [Text.source_width, Text.width_append, Text.width_append text] at total
    rw [opens.stop, start]
    omega
  · rw [Span.text_in_split split start opens.stop, tokenize, String.toList_ofList, length]
    exact opens.alone

-- The stretches of the source outside of the tokens, from an offset on.
def gaps (stop : Nat) : Nat → List Lexeme → List Span
  | offset, [] => [⟨offset, stop⟩]
  | offset, lexeme :: others => ⟨offset, lexeme.span.start⟩ :: gaps stop lexeme.span.stop others

theorem read_after {offset : Nat} {chars : List Char} {lexemes : List Lexeme}
    (accepted : read offset chars = .ok lexemes) : ∀ lexeme ∈ lexemes, offset ≤ lexeme.span.start := by
  induction lexemes generalizing offset chars with
  | nil => exact fun _ member => absurd member List.not_mem_nil
  | cons first others ih =>
    obtain ⟨skipped, text, after, opens, inner⟩ := read_cons accepted
    have starts := opens.start
    have stops := opens.stop
    intro lexeme member
    rcases List.mem_cons.1 member with rfl | member
    · omega
    · have later := ih inner lexeme member
      omega

-- The induction goes over the tokens; what is in front of the text that is still to be read grows.
theorem read_covers {source : String} {before chars : List Char} {lexemes : List Lexeme}
    (whole : source.toList = before ++ chars) (accepted : read (Text.width before) chars = .ok lexemes) :
    (∀ lexeme ∈ lexemes, lexeme.Placed source) ∧
      lexemes.Pairwise (fun earlier later => earlier.span.stop ≤ later.span.start) ∧
      ∀ gap ∈ gaps source.utf8ByteSize (Text.width before) lexemes, gap.start ≤ gap.stop ∧
        Text.Skipped (gap.stop = source.utf8ByteSize) (gap.textIn source).toList := by
  induction lexemes generalizing before chars with
  | nil =>
    refine ⟨fun _ member => absurd member List.not_mem_nil, .nil, ?_⟩
    intro gap member
    obtain rfl := List.mem_singleton.1 member
    have total := congrArg Text.width whole
    rw [Text.source_width, Text.width_append] at total
    have skipped := (Token.gap_skipped chars).1
    have everything := Token.gap_append false chars
    rw [read_nil accepted, List.append_nil] at everything
    rw [everything] at skipped
    refine ⟨by dsimp only; omega, ?_⟩
    have parted : source.toList = before ++ (chars ++ []) := by rw [List.append_nil, whole]
    rw [Span.text_in_split parted rfl total, String.toList_ofList]
    exact Text.skipped_mono (fun _ => rfl) skipped
  | cons first others ih =>
    obtain ⟨skipped, text, after, opens, inner⟩ := read_cons accepted
    have stop : first.span.stop = Text.width (before ++ skipped ++ text) := by
      rw [opens.stop, opens.start, Text.width_append, Text.width_append]
    have split : source.toList = before ++ skipped ++ text ++ after := by
      rw [whole, opens.whole, List.append_assoc, List.append_assoc]
    have later := read_after inner
    rw [stop] at inner
    obtain ⟨placed, ordered, covered⟩ := ih split inner
    refine ⟨?_, List.pairwise_cons.2 ⟨later, ordered⟩, ?_⟩
    · intro lexeme member
      rcases List.mem_cons.1 member with rfl | member
      · exact opens.placed whole
      · exact placed lexeme member
    · intro gap member
      rw [gaps, stop] at member
      rcases List.mem_cons.1 member with rfl | member
      · have starts := opens.start
        refine ⟨by dsimp only; omega, ?_⟩
        have parted : source.toList = before ++ (skipped ++ (text ++ after)) := by rw [whole, opens.whole]
        rw [Span.text_in_split parted rfl starts, String.toList_ofList]
        exact opens.skipped _
      · exact covered gap member

end Lexeme

theorem tokens_tile_the_source (source : String) (lexemes : List Lexeme) (accepted : tokenize source = .ok lexemes) :
    (∀ lexeme ∈ lexemes, lexeme.Placed source) ∧
      lexemes.Pairwise (fun earlier later => earlier.span.stop ≤ later.span.start) ∧
      ∀ gap ∈ Lexeme.gaps source.utf8ByteSize 0 lexemes, gap.start ≤ gap.stop ∧
        Text.Skipped (gap.stop = source.utf8ByteSize) (gap.textIn source).toList := by
  have whole : source.toList = [] ++ source.toList := rfl
  exact Lexeme.read_covers whole accepted

theorem commented_tokens_tile_the_source :
    tokenize "a -- é\n<>'it''s' --" = .ok [⟨.ident "a", ⟨0, 1⟩⟩, ⟨.symbol .notEq, ⟨8, 10⟩⟩, ⟨.str "it's", ⟨10, 17⟩⟩] ∧
      (⟨.str "it's", ⟨10, 17⟩⟩ : Lexeme).Placed "a -- é\n<>'it''s' --" ∧
      ∀ gap ∈ [(⟨0, 0⟩ : Span), ⟨1, 8⟩, ⟨10, 10⟩, ⟨17, 20⟩], gap.start ≤ gap.stop ∧
        Text.Skipped (gap.stop = 20) (gap.textIn "a -- é\n<>'it''s' --").toList := by
  have accepted : tokenize "a -- é\n<>'it''s' --" =
      .ok [⟨.ident "a", ⟨0, 1⟩⟩, ⟨.symbol .notEq, ⟨8, 10⟩⟩, ⟨.str "it's", ⟨10, 17⟩⟩] := by decide +kernel
  obtain ⟨placed, -, covered⟩ := tokens_tile_the_source _ _ accepted
  exact ⟨accepted, placed _ (.tail _ (.tail _ (.head _))), covered⟩

end PipeSql

import PipeSql.Proofs.Script.Blanked
import PipeSql.Proofs.Token.Cover

set_option autoImplicit false

namespace PipeSql

def Token.isString : Token → Bool
  | .str _ => true
  | _ => false

namespace Screen

def blanked (source : String) : String :=
  String.ofList (blankOut .code source.toList)

-- What stands in the place of a character: the character, or spaces of its width if it is no line break.
def Kept (c : Char) (piece : List Char) : Prop :=
  piece = [c] ∨ c ≠ '\n' ∧ piece = List.replicate c.utf8Size ' '

theorem blanks_kept (c : Char) : Kept c (blanks c) := by
  unfold blanks
  by_cases newline : c = '\n'
  · rw [if_pos newline, newline]
    exact .inl rfl
  · rw [if_neg newline]
    exact .inr ⟨newline, rfl⟩

theorem kept_width {c : Char} {piece : List Char} (kept : Kept c piece) : Text.width piece = c.utf8Size := by
  rcases kept with rfl | ⟨-, rfl⟩
  · rfl
  · exact width_replicate _

theorem blank_out_cons (region : Region) (c : Char) (rest : List Char) :
    ∃ piece next, blankOut region (c :: rest) = piece ++ blankOut next rest ∧ Kept c piece := by
  rw [blankOut]
  obtain ⟨hidden, next⟩ := region.step c rest.head?
  cases hidden with
  | true => exact ⟨blanks c, next, rfl, blanks_kept c⟩
  | false => exact ⟨[c], next, rfl, .inl rfl⟩

theorem blank_out_append (region : Region) (before after : List Char) :
    ∃ front next, blankOut region (before ++ after) = front ++ blankOut next after ∧
      Text.width front = Text.width before := by
  induction before generalizing region with
  | nil => exact ⟨[], region, rfl, rfl⟩
  | cons c before ih =>
    obtain ⟨piece, next, same, kept⟩ := blank_out_cons region c (before ++ after)
    obtain ⟨front, last, shown, width⟩ := ih next
    refine ⟨piece ++ front, last, ?_, ?_⟩
    · rw [List.cons_append, same, shown, List.append_assoc]
    · rw [Text.width_append, kept_width kept, width, Text.width]

theorem blank_out_width (region : Region) (chars : List Char) :
    Text.width (blankOut region chars) = Text.width chars := by
  obtain ⟨front, next, same, width⟩ := blank_out_append region chars []
  rw [List.append_nil] at same
  rw [same, blankOut, List.append_nil, width]

-- The first character is a space or what it was.
theorem blank_out_head (chars : List Char) (c : Char) (head : (blankOut .code chars).head? = some c) :
    c = ' ' ∨ chars.head? = some c := by
  cases chars with
  | nil => cases head
  | cons d rest =>
    obtain ⟨piece, next, same, rfl | ⟨-, rfl⟩⟩ := blank_out_cons .code d rest
    · rw [same] at head
      exact .inr head
    · obtain ⟨n, size⟩ := Nat.exists_eq_succ_of_ne_zero (Nat.ne_of_gt d.utf8Size_pos)
      rw [same, size] at head
      exact .inl (Option.some.inj head).symm

end Screen

open Screen

theorem Token.ends_before_blanked {token : Token} {rest : List Char} (ends : token.EndsBefore rest) :
    token.EndsBefore (blankOut .code rest) := by
  intro c head
  rcases blank_out_head rest c head with rfl | same
  · exact token.ends_before_space [] ' ' rfl
  · exact ends c same

theorem Token.gap_blanks {lead : List Char} (blank : ∀ c ∈ lead, Text.isBlank c = true) (rest : List Char) :
    gap false (lead ++ rest) = (lead ++ (gap false rest).1, (gap false rest).2) := by
  induction lead with
  | nil => rfl
  | cons c lead ih =>
    rw [List.cons_append, gap_blank (blank c (.head _)), ih fun d member => blank d (.tail _ member)]
    rfl

theorem Token.gap_blanked {chars skipped text after : List Char} {token : Token}
    (gap : gap false chars = (skipped, text ++ after)) (found : scan (text ++ after) = .found token text after)
    (plain : ∀ value, token ≠ .str value) :
    Token.gap false (text ++ blankOut .code after) = ([], text ++ blankOut .code after) := by
  obtain ⟨c, rest, rfl⟩ := List.exists_cons_of_ne_nil (scan_append found).2
  obtain ⟨visible, single⟩ := gap_stops false chars (congrArg Prod.snd gap)
  refine gap_stopped (by rw [visible]; decide) ?_
  rintro ⟨rfl, second⟩
  -- a dash is a token of its own, and no dash is shown behind it
  obtain ⟨-, absent | alone⟩ := spelled_quiet (scan_spelled found) plain
  · exact absent (.head _)
  · obtain rfl := (List.cons.inj alone).2
    rcases blank_out_head after '-' second with space | dash
    · cases space
    · exact single ⟨rfl, dash⟩

namespace Lexeme

theorem read_opened {offset : Nat} {chars : List Char} {lexeme : Lexeme} {skipped text after : List Char}
    (opens : Opens offset chars lexeme skipped text after) {others : List Lexeme}
    (accepted : read lexeme.span.stop after = .ok others) : read offset chars = .ok (lexeme :: others) := by
  obtain ⟨token, span⟩ := lexeme
  obtain ⟨gap, scanned, start, stop⟩ := opens
  have filled := List.append_ne_nil_of_left_ne_nil (Token.scan_append scanned).2 after
  obtain ⟨c, rest, front⟩ := List.exists_cons_of_ne_nil filled
  rw [read_round, gap]
  rw [front] at scanned ⊢
  simp only [scanned]
  rw [← start, ← stop, accepted]
  rfl

theorem read_blank {chars : List Char} (blank : ∀ c ∈ chars, Text.isBlank c = true) (offset : Nat) :
    read offset chars = .ok [] := by
  have gap := Token.gap_blanks blank []
  rw [List.append_nil] at gap
  rw [read_round, gap]
  rfl

-- The induction goes over the tokens of the source. A string that is passed adds to the blanks in front.
theorem read_blanked {lexemes : List Lexeme} {offset : Nat} {lead chars : List Char}
    (blank : ∀ c ∈ lead, Text.isBlank c = true) (accepted : read (offset + Text.width lead) chars = .ok lexemes) :
    read offset (lead ++ blankOut .code chars) = .ok (lexemes.filter fun lexeme => !lexeme.token.isString) := by
  induction lexemes generalizing offset lead chars with
  | nil =>
    obtain ⟨shown, same, blanked⟩ := blank_out_gap false chars
    rw [read_nil accepted, blankOut, List.append_nil] at same
    rw [show blankOut .code chars = shown from same]
    apply read_blank
    intro c member
    exact (List.mem_append.1 member).elim (blank c) (blanked.blank c)
  | cons lexeme others ih =>
    obtain ⟨skipped, text, after, opens, inner⟩ := read_cons accepted
    obtain ⟨gap, shown, same, blanked, known⟩ := blank_out_opens opens
    have ahead : ∀ c ∈ lead ++ gap, Text.isBlank c = true := fun c member =>
      (List.mem_append.1 member).elim (blank c) (blanked.blank c)
    have start : lexeme.span.start = offset + Text.width (lead ++ gap) := by
      rw [opens.start, Text.width_append, blanked.width, Nat.add_assoc]
    have stop := opens.stop
    obtain ⟨token, span⟩ := lexeme
    rw [same, ← List.append_assoc]
    cases known with
    | string value hidden =>
      have stretch : offset + Text.width (lead ++ gap ++ shown) = span.stop := by
        rw [Text.width_append _ shown, hidden.width, ← Nat.add_assoc, ← start, stop]
      rw [← stretch] at inner
      rw [← List.append_assoc]
      refine ih (fun c member => ?_) inner
      exact (List.mem_append.1 member).elim (ahead c) (hidden.blank c)
    | token _ plain =>
      have scanned := Token.scan_stopped (Token.scan_spelled opens.scanned) (Token.scan_sound _ _ _ _ opens.scanned)
        plain (Token.ends_before_blanked (Token.scan_ends_before opens.scanned plain))
      have visible : Token.gap false (lead ++ gap ++ (text ++ blankOut .code after)) =
          (lead ++ gap, text ++ blankOut .code after) := by
        rw [Token.gap_blanks ahead, Token.gap_blanked opens.gap opens.scanned plain, List.append_nil]
      have listed : (⟨token, span⟩ :: others).filter (fun lexeme => !lexeme.token.isString) =
          ⟨token, span⟩ :: others.filter fun lexeme => !lexeme.token.isString := by
        cases token with
        | str value => exact absurd rfl (plain value)
        | _ => rfl
      have behind := @ih span.stop [] after (fun _ member => absurd member List.not_mem_nil) inner
      rw [listed]
      exact read_opened ⟨visible, scanned, start, stop⟩ behind

end Lexeme

-- Every character keeps its place, or has spaces in it. If the source has tokens, then the same ones are left.
theorem blanked_source_keeps_its_tokens (source : String) :
    (blanked source).utf8ByteSize = source.utf8ByteSize ∧
    (∀ before c after, source.toList = before ++ c :: after →
      ∃ front piece back, (blanked source).toList = front ++ piece ++ back ∧ Text.width front = Text.width before ∧
        Kept c piece) ∧
    ∀ lexemes, tokenize source = .ok lexemes →
      tokenize (blanked source) = .ok (lexemes.filter fun lexeme => !lexeme.token.isString) := by
  refine ⟨?_, ?_, ?_⟩
  · rw [← Text.source_width, ← Text.source_width, blanked, String.toList_ofList, blank_out_width]
  · intro before c after whole
    obtain ⟨front, next, shown, width⟩ := blank_out_append .code before (c :: after)
    obtain ⟨piece, last, same, kept⟩ := blank_out_cons next c after
    refine ⟨front, piece, blankOut last after, ?_, width, kept⟩
    rw [blanked, String.toList_ofList, whole, shown, same, List.append_assoc]
  · intro lexemes accepted
    rw [tokenize, blanked, String.toList_ofList]
    exact Lexeme.read_blanked (fun _ member => absurd member List.not_mem_nil) accepted

-- Quotes in a comment, dashes in a string and a character of two bytes.
theorem commented_string_keeps_other_tokens :
    tokenize "a--it's\n||'--''é'b" = .ok [⟨.ident "a", ⟨0, 1⟩⟩, ⟨.symbol .concat, ⟨8, 10⟩⟩, ⟨.str "--'é", ⟨10, 18⟩⟩,
        ⟨.ident "b", ⟨18, 19⟩⟩] ∧
      blanked "a--it's\n||'--''é'b" = "a      \n||        b" ∧
      tokenize (blanked "a--it's\n||'--''é'b") =
        .ok [⟨.ident "a", ⟨0, 1⟩⟩, ⟨.symbol .concat, ⟨8, 10⟩⟩, ⟨.ident "b", ⟨18, 19⟩⟩] := by
  have accepted : tokenize "a--it's\n||'--''é'b" = .ok [⟨.ident "a", ⟨0, 1⟩⟩, ⟨.symbol .concat, ⟨8, 10⟩⟩,
      ⟨.str "--'é", ⟨10, 18⟩⟩, ⟨.ident "b", ⟨18, 19⟩⟩] := by decide +kernel
  exact ⟨accepted, by decide +kernel, (blanked_source_keeps_its_tokens _).2.2 _ accepted⟩

end PipeSql

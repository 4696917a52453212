import Mathlib.Data.List.DropRight
import PipeSql.Proofs.Token.Cover

set_option autoImplicit false

namespace PipeSql

namespace Text

-- The last place between two characters that is not behind the offset.
def boundary (source : String) : Nat → Nat
  | 0 => 0
  | offset + 1 =>
    if String.Pos.Raw.IsValid source ⟨offset + 1⟩ then offset + 1 else boundary source offset

theorem split_width_le (room : Nat) (chars : List Char) : width (splitWidth room chars).1 ≤ room := by
  induction chars generalizing room with
  | nil => exact Nat.zero_le room
  | cons c rest ih =>
    rw [splitWidth]
    split
    · have := ih (room - c.utf8Size)
      simp only [width]
      omega
    · exact Nat.zero_le room

-- No longer run of leading characters fits.
theorem split_width_greatest (room : Nat) {before : List Char} (after : List Char) (fits : width before ≤ room) :
    width before ≤ width (splitWidth room (before ++ after)).1 := by
  induction before generalizing room with
  | nil => exact Nat.zero_le _
  | cons c rest ih =>
    rw [width] at fits
    rw [List.cons_append, splitWidth, if_pos (by omega)]
    have := ih (room - c.utf8Size) (by omega)
    simp only [width]
    omega

theorem split_width_behind (before : List Char) (room : Nat) (after : List Char) :
    (splitWidth (width before + room) (before ++ after)).1 = before ++ (splitWidth room after).1 := by
  induction before with
  | nil => rw [width, Nat.zero_add, List.nil_append, List.nil_append]
  | cons c rest ih =>
    have inner : width (c :: rest) + room - c.utf8Size = width rest + room := by
      rw [width]
      omega
    rw [List.cons_append, splitWidth, if_pos (by rw [width]; omega), inner]
    exact congrArg (c :: ·) ih

theorem boundary_eq {source : String} {place offset : Nat} (valid : String.Pos.Raw.IsValid source ⟨place⟩)
    (le : place ≤ offset) (last : ∀ other, place < other → other ≤ offset → ¬String.Pos.Raw.IsValid source ⟨other⟩) :
    boundary source offset = place := by
  induction offset with
  | zero => exact (Nat.le_zero.1 le).symm
  | succ offset ih =>
    rw [boundary]
    rcases Nat.lt_or_eq_of_le le with less | rfl
    · rw [if_neg (last _ less (Nat.le_refl _))]
      exact ih (Nat.le_of_lt_succ less) fun other behind within => last other behind (Nat.le_succ_of_le within)
    · rw [if_pos valid]

theorem boundary_split_width (source : String) (offset : Nat) :
    boundary source offset = width (splitWidth offset source.toList).1 := by
  refine boundary_eq (boundary_split (split_width_append offset source.toList).symm) (split_width_le _ _) ?_
  intro other behind within valid
  obtain ⟨front, back, rfl, same⟩ := String.Pos.Raw.isValid_iff_exists_append.1 valid
  have place : other = width front.toList := by
    rw [source_width]
    exact congrArg String.Pos.Raw.byteIdx same
  rw [String.toList_append] at behind
  have longest := split_width_greatest offset back.toList (place ▸ within)
  omega

end Text

-- Defined only if the span begins before it ends, and both between characters.
def Span.slice? (source : String) (span : Span) : Option String :=
  if span.start ≤ span.stop ∧ String.Pos.Raw.IsValid source ⟨span.start⟩ ∧
      String.Pos.Raw.IsValid source ⟨span.stop⟩ then
    some (span.textIn source)
  else none

theorem Span.slice_split {source : String} {before text after : List Char} {span : Span}
    (whole : source.toList = before ++ (text ++ after)) (start : span.start = Text.width before)
    (stop : span.stop = span.start + Text.width text) : span.slice? source = some (String.ofList text) := by
  have ends : span.stop = Text.width (before ++ text) := by rw [stop, start, Text.width_append]
  rw [slice?, if_pos, text_in_split whole start stop]
  refine ⟨by omega, ?_, ?_⟩
  · rw [start]
    exact Text.boundary_split whole
  · rw [ends]
    exact Text.boundary_split (by rw [whole, List.append_assoc])

namespace Location

def bySlices? (source : String) (span : Span) : Option Location := do
  let first := Text.boundary source span.start
  let last := Text.boundary source (max span.stop first)
  let before ← Span.slice? source ⟨0, first⟩
  let lineStart := Text.width (before.toList.rdropWhile (· != '\n'))
  let lead ← Span.slice? source ⟨lineStart, first⟩
  let inside ← Span.slice? source ⟨first, last⟩
  let rest ← Span.slice? source ⟨lineStart, source.utf8ByteSize⟩
  return {
    line := before.toList.count '\n' + 1
    column := lead.length
    start := before.length
    stop := before.length + inside.length
    snippet := String.ofList (lineHead rest.toList ++ '\n' :: List.replicate lead.length ' ' ++
      List.replicate (max inside.length 1) '^') }

theorem lines_append (chars : List Char) : chars.rdropWhile (· != '\n') ++ lineTail chars = chars :=
  List.rdropWhile_append_rtakeWhile

theorem line_tail_plain (chars : List Char) : '\n' ∉ lineTail chars := fun present => by
  have other := List.mem_rtakeWhile_imp present
  cases other

structure Around (source : String) (span : Span) (earlier lead inside rest : List Char) : Prop where
  whole : source.toList = earlier ++ (lead ++ (inside ++ rest))
  lines : (earlier ++ lead).rdropWhile (· != '\n') = earlier
  line : '\n' ∉ lead
  first : Text.boundary source span.start = Text.width (earlier ++ lead)
  last : Text.boundary source (max span.stop (Text.width (earlier ++ lead))) = Text.width (earlier ++ lead ++ inside)
  located : ofSpan source span =
    { line := (earlier ++ lead).count '\n' + 1
      column := lead.length
      start := (earlier ++ lead).length
      stop := (earlier ++ lead).length + inside.length
      snippet := String.ofList (lineHead (lead ++ (inside ++ rest)) ++ '\n' :: List.replicate lead.length ' ' ++
        List.replicate (max inside.length 1) '^') }

theorem around_of_span (source : String) (span : Span) : ∃ earlier lead inside rest,
    Around source span earlier lead inside rest := by
  let before := (Text.splitWidth span.start source.toList).1
  let after := (Text.splitWidth span.start source.toList).2
  let parts := Text.splitWidth (span.stop - Text.width before) after
  have whole : before ++ after = source.toList := Text.split_width_append span.start source.toList
  have behind : parts.1 ++ parts.2 = after := Text.split_width_append _ after
  have lines : before.rdropWhile (· != '\n') ++ lineTail before = before := lines_append before
  refine ⟨before.rdropWhile (· != '\n'), lineTail before, parts.1, parts.2, ?_, ?_, line_tail_plain before, ?_, ?_, ?_⟩
  · rw [behind, ← List.append_assoc, lines, whole]
  · rw [lines]
  · rw [lines]
    exact Text.boundary_split_width source span.start
  · have sum : max span.stop (Text.width before) = Text.width before + (span.stop - Text.width before) := by omega
    rw [lines, Text.boundary_split_width, sum, ← whole, Text.split_width_behind]
  · rw [lines, behind]
    rfl

theorem by_slices_eq (source : String) (span : Span) : bySlices? source span = some (ofSpan source span) := by
  obtain ⟨earlier, lead, inside, rest, around⟩ := around_of_span source span
  have before : Span.slice? source ⟨0, Text.width (earlier ++ lead)⟩ = some (String.ofList (earlier ++ lead)) :=
    Span.slice_split (by rw [around.whole, ← List.append_assoc, List.nil_append]) rfl (Nat.zero_add _).symm
  have line : Span.slice? source ⟨Text.width earlier, Text.width (earlier ++ lead)⟩ = some (String.ofList lead) :=
    Span.slice_split around.whole rfl (Text.width_append earlier lead)
  have fragment : Span.slice? source ⟨Text.width (earlier ++ lead), Text.width (earlier ++ lead ++ inside)⟩ =
      some (String.ofList inside) :=
    Span.slice_split (by rw [around.whole, List.append_assoc]) rfl (Text.width_append _ inside)
  have remaining : Span.slice? source ⟨Text.width earlier, source.utf8ByteSize⟩ =
      some (String.ofList (lead ++ (inside ++ rest))) := by
    refine Span.slice_split (by rw [around.whole, List.append_nil]) rfl ?_
    rw [← Text.source_width, around.whole, Text.width_append]
  unfold bySlices?
  simp only [around.first, around.last, before, Option.bind_eq_bind, Option.bind_some, String.toList_ofList,
    around.lines, line, fragment, remaining, String.length_ofList, around.located]
  rfl

def above : List Char → List Char → List (Option Char)
  | _, [] => []
  | line, mark :: marks =>
    if mark = '^' then line.head? :: above line.tail marks else above line.tail marks

def underlined (location : Location) : List (Option Char) :=
  above (location.snippet.toList.takeWhile (· != '\n')) (location.snippet.toList.dropWhile (· != '\n')).tail

theorem above_fragment (lead inside rest : List Char) :
    above (lead ++ (inside ++ rest)) (List.replicate lead.length ' ' ++ List.replicate inside.length '^') =
      inside.map some := by
  induction lead with
  | nil =>
    induction inside with
    | nil => rfl
    | cons c inside ih => exact congrArg (some c :: ·) ih
  | cons c lead ih => exact ih

theorem line_head_plain (chars : List Char) : '\n' ∉ lineHead chars := by
  fun_induction lineHead chars with
  | case1 => exact List.not_mem_nil
  | case2 => exact List.not_mem_nil
  | case3 => exact List.not_mem_nil
  | case4 c rest _ other ih =>
    rw [List.mem_cons, not_or]
    exact ⟨Ne.symm other, ih⟩

-- A carriage return is left out only in front of a line break, so what ends in another character is kept.
theorem line_head_append {front : List Char} (next : List Char) (line : '\n' ∉ front)
    (ends : front.getLast? ≠ some '\r') : lineHead (front ++ next) = front ++ lineHead next := by
  induction front with
  | nil => rfl
  | cons c front ih =>
    rw [List.mem_cons, not_or] at line
    have step : lineHead (c :: (front ++ next)) = c :: lineHead (front ++ next) := by
      rw [lineHead, if_neg (Ne.symm line.1)]
      rintro rest rfl follows
      cases front with
      | nil => exact ends rfl
      | cons d front =>
        cases follows
        exact line.2 (.head _)
    rw [List.cons_append, step]
    cases front with
    | nil => rfl
    | cons d front =>
      rw [ih line.2 (by simpa using ends)]
      rfl

def fragment (source : String) (location : Location) : List Char :=
  (source.toList.drop location.start).take (location.stop - location.start)

def earlierLines (source : String) (location : Location) : List Char :=
  (source.toList.take location.start).rdropWhile (· != '\n')

section

variable {source : String} {span : Span} {earlier lead inside rest : List Char}

theorem start_around (around : Around source span earlier lead inside rest) :
    (ofSpan source span).start = (earlier ++ lead).length :=
  congrArg Location.start around.located

theorem taken_around (around : Around source span earlier lead inside rest) :
    source.toList.take (ofSpan source span).start = earlier ++ lead := by
  rw [start_around around, around.whole, ← List.append_assoc, List.take_left]

theorem fragment_around (around : Around source span earlier lead inside rest) :
    (ofSpan source span).fragment source = inside := by
  have stop : (ofSpan source span).stop = (earlier ++ lead).length + inside.length :=
    congrArg Location.stop around.located
  rw [fragment, start_around around, stop, around.whole, ← List.append_assoc, List.drop_left, Nat.add_sub_cancel_left,
    List.take_left]

theorem underlined_around (around : Around source span earlier lead inside rest) (filled : inside ≠ [])
    (noReturn : '\r' ∉ inside) (oneLine : '\n' ∉ inside) : (ofSpan source span).underlined = inside.map some := by
  have width : max inside.length 1 = inside.length := Nat.max_eq_left (List.length_pos_of_ne_nil filled)
  have shown : lineHead (lead ++ (inside ++ rest)) = lead ++ (inside ++ lineHead rest) := by
    rw [← List.append_assoc, line_head_append rest, List.append_assoc]
    · rw [List.mem_append, not_or]
      exact ⟨around.line, oneLine⟩
    · rw [List.getLast?_append_of_ne_nil _ filled]
      exact fun last => noReturn (List.mem_of_getLast? last)
  have plain : ∀ c ∈ lineHead (lead ++ (inside ++ rest)), (c != '\n') = true := by
    intro c member
    rw [bne_iff_ne]
    rintro rfl
    exact line_head_plain _ member
  rw [underlined, around.located, String.toList_ofList, List.append_assoc, List.takeWhile_append_of_pos plain,
    List.dropWhile_append_of_pos plain, width, shown]
  rw [List.cons_append, List.takeWhile_cons_of_neg (by decide), List.dropWhile_cons_of_neg (by decide), List.append_nil]
  exact above_fragment lead inside (lineHead rest)

end

end Location

theorem location_points_at_fragment (source : String) (span : Span) : ∃ location,
    Location.bySlices? source span = some location ∧ Location.ofSpan source span = location ∧
      location.start ≤ location.stop ∧ location.stop ≤ source.length ∧
      location.line = (source.toList.take location.start).count '\n' + 1 ∧
      location.start = (location.earlierLines source).length + location.column ∧
      (location.fragment source ≠ [] → '\r' ∉ location.fragment source → '\n' ∉ location.fragment source →
        location.underlined = (location.fragment source).map some) := by
  obtain ⟨earlier, lead, inside, rest, around⟩ := Location.around_of_span source span
  have taken := Location.taken_around around
  refine ⟨Location.ofSpan source span, Location.by_slices_eq source span, rfl, ?_, ?_, ?_, ?_, ?_⟩
  · rw [around.located]
    exact Nat.le_add_right _ _
  · rw [around.located, ← String.length_toList, around.whole]
    simp only [List.length_append]
    omega
  · rw [taken, around.located]
  · rw [Location.earlierLines, taken, around.lines, around.located, List.length_append]
  · rw [Location.fragment_around around]
    exact Location.underlined_around around

-- The range begins inside of the second character and ends in front of the line break.
theorem accented_fragment_is_underlined :
    Location.ofSpan "a\r\nxé=1\r\n" ⟨5, 8⟩ = ⟨2, 1, 4, 7, "xé=1\n ^^^"⟩ ∧
      Location.bySlices? "a\r\nxé=1\r\n" ⟨5, 8⟩ = some ⟨2, 1, 4, 7, "xé=1\n ^^^"⟩ ∧
      Location.underlined ⟨2, 1, 4, 7, "xé=1\n ^^^"⟩ = [some 'é', some '=', some '1'] := by
  have located : Location.ofSpan "a\r\nxé=1\r\n" ⟨5, 8⟩ = ⟨2, 1, 4, 7, "xé=1\n ^^^"⟩ := by decide +kernel
  obtain ⟨location, sliced, rfl, -, -, -, -, pointed⟩ := location_points_at_fragment "a\r\nxé=1\r\n" ⟨5, 8⟩
  rw [located] at sliced pointed
  exact ⟨located, sliced, pointed (by decide) (by decide) (by decide)⟩

end PipeSql

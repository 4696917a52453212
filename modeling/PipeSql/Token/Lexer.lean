import PipeSql.Diagnostic
import PipeSql.Text
import PipeSql.Token

set_option autoImplicit false

namespace PipeSql

namespace Token

def gap (inComment : Bool) : List Char → List Char × List Char
  | [] => ([], [])
  | c :: rest =>
    if inComment then (c :: (gap (c != '\n') rest).1, (gap (c != '\n') rest).2)
    else if Text.isBlank c then (c :: (gap false rest).1, (gap false rest).2)
    else if c = '-' ∧ rest.head? = some '-' then (c :: (gap true rest).1, (gap true rest).2)
    else ([], c :: rest)

def dottedParts : List Char → List (List Char) × List Char
  | '.' :: c :: rest =>
    if Text.isNameStart c then
      let (parts, after) := dottedParts (rest.dropWhile Text.isNamePart)
      ((c :: rest.takeWhile Text.isNamePart) :: parts, after)
    else ([], '.' :: c :: rest)
  | rest => ([], rest)
termination_by chars => chars.length
decreasing_by
  have := (List.dropWhile_suffix Text.isNamePart (l := rest)).length_le
  simp only [List.length_cons]
  omega

def literal? : List Char → Option (List Char × List Char × List Char)
  | [] => none
  | '\'' :: '\'' :: rest =>
    (literal? rest).map fun (value, raw, after) => ('\'' :: value, '\'' :: '\'' :: raw, after)
  | c :: rest =>
    if c = '\'' then some ([], ['\''], rest)
    else (literal? rest).map fun (value, raw, after) => (c :: value, c :: raw, after)

inductive Scan where
  | found (token : Token) (lexeme rest : List Char)
  -- What could still begin a token, and what cannot continue it.
  | stuck (accepted rest : List Char)

def pathChars : List (List Char) → List Char
  | [] => []
  | part :: parts => '.' :: part ++ pathChars parts

def ofPath (first : List Char) (parts : List (List Char)) : Token :=
  match parts with
  | [] =>
    match Keyword.ofWord? (String.ofList first) with
    | some word => .keyword word
    | none => .ident (String.ofList first)
  | _ => .qualified ((first :: parts).map String.ofList)

def scanName (first rest : List Char) : Scan :=
  let parts := (dottedParts rest).1
  let path := first ++ pathChars parts
  match (dottedParts rest).2 with
  | '.' :: '*' :: beyond => .found (.tableWildcard (String.ofList path)) (path ++ ['.', '*']) beyond
  | '.' :: beyond => .stuck (path ++ ['.']) beyond
  | beyond => .found (ofPath first parts) path beyond

def scanNumber (whole rest : List Char) : Scan :=
  match rest with
  | '.' :: d :: beyond =>
    if d.isDigit then
      let digits := whole ++ '.' :: d :: beyond.takeWhile Char.isDigit
      .found (.decimal (String.ofList digits)) digits (beyond.dropWhile Char.isDigit)
    else .stuck (whole ++ ['.']) (d :: beyond)
  | ['.'] => .stuck (whole ++ ['.']) []
  | _ => .found (.int (String.ofList whole)) whole rest

def scanSymbol (chars : List Char) : Scan :=
  match Symbol.table.find? fun entry => entry.1.isPrefixOf chars with
  | some (lexeme, mark) => .found (.symbol mark) lexeme (chars.drop lexeme.length)
  | none =>
    match chars with
    | [] => .stuck [] []
    | c :: rest =>
      if Symbol.table.any fun entry => entry.1.head? == some c then .stuck [c] rest
      else .stuck [] (c :: rest)

-- The longest token at the front of a text that begins with neither a blank nor a comment.
def scan : List Char → Scan
  | [] => .stuck [] []
  | c :: rest =>
    if Text.isNameStart c then
      scanName (c :: rest.takeWhile Text.isNamePart) (rest.dropWhile Text.isNamePart)
    else if c.isDigit then
      scanNumber (c :: rest.takeWhile Char.isDigit) (rest.dropWhile Char.isDigit)
    else if c = '\'' then
      match literal? rest with
      | some (value, raw, after) => .found (.str (String.ofList value)) ('\'' :: raw) after
      | none => .stuck ('\'' :: rest) []
    else if c = '@' then
      match rest with
      | d :: beyond =>
        if Text.isNameStart d then
          let name := d :: beyond.takeWhile Text.isNamePart
          .found (.param (String.ofList name)) ('@' :: name) (beyond.dropWhile Text.isNamePart)
        else .stuck ['@'] rest
      | [] => .stuck ['@'] []
    else scanSymbol (c :: rest)

theorem gap_append (inComment : Bool) (chars : List Char) :
    (gap inComment chars).1 ++ (gap inComment chars).2 = chars := by
  induction chars generalizing inComment with
  | nil => rfl
  | cons c rest ih =>
    unfold gap
    split
    · simpa using ih _
    · split
      · simpa using ih _
      · split
        · simpa using ih _
        · rfl

theorem dotted_parts_append (chars : List Char) :
    pathChars (dottedParts chars).1 ++ (dottedParts chars).2 = chars := by
  fun_induction dottedParts chars with
  | case1 c rest start parts after found ih =>
    rw [found] at ih
    simp only [pathChars, List.cons_append, List.append_assoc, ih]
    rw [List.takeWhile_append_dropWhile]
  | case2 c rest start => rfl
  | case3 rest other => rfl

theorem literal?_append {chars value raw after : List Char}
    (closed : literal? chars = some (value, raw, after)) : raw ++ after = chars := by
  induction chars using literal?.induct generalizing value raw after with
  | case1 => simp [literal?] at closed
  | case2 rest ih =>
    simp only [literal?, Option.map_eq_some_iff, Prod.exists, Prod.mk.injEq] at closed
    obtain ⟨value', raw', after', inner, -, rfl, rfl⟩ := closed
    simpa using ih inner
  | case3 rest other =>
    simp only [literal?, if_true, Option.some.injEq, Prod.mk.injEq] at closed
    obtain ⟨-, rfl, rfl⟩ := closed
    rfl
  | case4 c rest other notQuote ih =>
    simp only [literal?, notQuote, if_false, Option.map_eq_some_iff, Prod.exists,
      Prod.mk.injEq] at closed
    obtain ⟨value', raw', after', inner, -, rfl, rfl⟩ := closed
    simpa using ih inner

theorem scan_name_append {first rest lexeme after : List Char} {token : Token}
    (found : scanName first rest = .found token lexeme after) :
    lexeme ++ after = first ++ rest ∧ (first ≠ [] → lexeme ≠ []) := by
  have whole := dotted_parts_append rest
  unfold scanName at found
  split at found
  · rename_i beyond ended
    rw [ended] at whole
    cases found
    constructor
    · simpa using congrArg (first ++ ·) whole
    · simp
  · cases found
  · cases found
    constructor
    · rw [List.append_assoc, whole]
    · intro some empty
      exact some (List.append_eq_nil_iff.1 empty).1

theorem scan_number_append {whole rest lexeme after : List Char} {token : Token}
    (found : scanNumber whole rest = .found token lexeme after) :
    lexeme ++ after = whole ++ rest ∧ (whole ≠ [] → lexeme ≠ []) := by
  unfold scanNumber at found
  split at found
  · split at found
    · cases found
      simp [List.takeWhile_append_dropWhile]
    · cases found
  · cases found
  · cases found
    simp

theorem scan_symbol_append {chars lexeme after : List Char} {token : Token}
    (found : scanSymbol chars = .found token lexeme after) :
    lexeme ++ after = chars ∧ lexeme ≠ [] := by
  unfold scanSymbol at found
  split at found
  · rename_i text mark listed
    cases found
    constructor
    · have agrees := List.find?_some listed
      obtain ⟨tail, rfl⟩ := List.isPrefixOf_iff_prefix.1 agrees
      simp
    · have member := List.mem_of_find?_eq_some listed
      intro empty
      subst empty
      revert member
      simp [Symbol.table]
  · split at found
    · cases found
    · split at found <;> cases found

theorem scan_append {chars lexeme after : List Char} {token : Token}
    (found : scan chars = .found token lexeme after) :
    lexeme ++ after = chars ∧ lexeme ≠ [] := by
  unfold scan at found
  split at found
  · cases found
  · rename_i c rest
    split at found
    · have parts := scan_name_append found
      exact ⟨by simp [parts.1, List.takeWhile_append_dropWhile], parts.2 (by simp)⟩
    · split at found
      · have parts := scan_number_append found
        exact ⟨by simp [parts.1, List.takeWhile_append_dropWhile], parts.2 (by simp)⟩
      · split at found
        · rename_i quote
          split at found
          · rename_i value raw behind closed
            cases found
            exact ⟨by simp [literal?_append closed, quote], by simp⟩
          · cases found
        · split at found
          · rename_i mark
            split at found
            · split at found
              · cases found
                exact ⟨by simp [List.takeWhile_append_dropWhile, mark], by simp⟩
              · cases found
            · cases found
          · exact scan_symbol_append found

structure Fault where
  offset : Nat
  found : Option Char
deriving DecidableEq, Repr

namespace Fault

def span (fault : Fault) : Span :=
  ⟨fault.offset, fault.offset + (fault.found.map Char.utf8Size).getD 0⟩

def message (fault : Fault) : String :=
  match fault.found with
  | some c => "Unrecognized token '" ++ c.toString ++ "'"
  | none => "Unexpected end of input"

def diagnose (source : String) (fault : Fault) : Diagnostic :=
  .located .lexical fault.message source fault.span

end Fault

end Token

namespace Lexeme

def read (offset : Nat) (chars : List Char) : Except Token.Fault (List Lexeme) :=
  let skipped := (Token.gap false chars).1
  let start := offset + Text.width skipped
  match _ : (Token.gap false chars).2 with
  | [] => .ok []
  | c :: rest =>
    match _ : Token.scan (c :: rest) with
    | .stuck accepted beyond => .error ⟨start + Text.width accepted, beyond.head?⟩
    | .found token lexeme after =>
      let stop := start + Text.width lexeme
      (read stop after).map (⟨token, ⟨start, stop⟩⟩ :: ·)
termination_by chars.length
decreasing_by
  rename_i body result
  have parts := Token.scan_append result
  have whole := congrArg List.length (Token.gap_append false chars)
  have pieces := congrArg List.length parts.1
  have positive := List.length_pos_iff.2 parts.2
  rw [body] at whole
  simp only [List.length_append, List.length_cons] at whole pieces
  omega

end Lexeme

def tokenize (source : String) : Except Token.Fault (List Lexeme) :=
  Lexeme.read 0 source.toList

end PipeSql

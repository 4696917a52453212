import PipeSql.Source

set_option autoImplicit false

namespace PipeSql

inductive Keyword where
  | let | fn | asc | desc | and | or | distinct | exists | null | is | not | in | as | like
  | case | when | then | else | end | over | partition | by | order | on
deriving DecidableEq, Repr

namespace Keyword

def all : List Keyword :=
  [.let, .fn, .asc, .desc, .and, .or, .distinct, .exists, .null, .is, .not, .in, .as, .like,
    .case, .when, .then, .else, .end, .over, .partition, .by, .order, .on]

def spelling : Keyword → String
  | .let => "let"
  | .fn => "fn"
  | .asc => "ASC"
  | .desc => "DESC"
  | .and => "AND"
  | .or => "OR"
  | .distinct => "DISTINCT"
  | .exists => "EXISTS"
  | .null => "NULL"
  | .is => "IS"
  | .not => "NOT"
  | .in => "IN"
  | .as => "AS"
  | .like => "LIKE"
  | .case => "CASE"
  | .when => "WHEN"
  | .then => "THEN"
  | .else => "ELSE"
  | .end => "END"
  | .over => "OVER"
  | .partition => "PARTITION"
  | .by => "BY"
  | .order => "ORDER"
  | .on => "ON"

def ofWord? (word : String) : Option Keyword :=
  all.find? fun keyword => Text.sameWord keyword.spelling word

end Keyword

inductive Symbol where
  | pipe | arrow | eq | eqEq | notEq | lt | gt | ltEq | gtEq
  | plus | minus | star | slash | percent | concat | leftParen | rightParen | comma
deriving DecidableEq, Repr

def Symbol.spelling : Symbol → String
  | .pipe => "|>"
  | .arrow => "=>"
  | .eq => "="
  | .eqEq => "=="
  | .notEq => "!="
  | .lt => "<"
  | .gt => ">"
  | .ltEq => "<="
  | .gtEq => ">="
  | .plus => "+"
  | .minus => "-"
  | .star => "*"
  | .slash => "/"
  | .percent => "%"
  | .concat => "||"
  | .leftParen => "("
  | .rightParen => ")"
  | .comma => ","

-- The longer symbols come first. Inequality has two spellings.
def Symbol.table : List (List Char × Symbol) :=
  [(['|', '>'], .pipe), (['=', '>'], .arrow), (['=', '='], .eqEq), (['!', '='], .notEq),
    (['<', '>'], .notEq), (['<', '='], .ltEq), (['>', '='], .gtEq), (['|', '|'], .concat),
    (['='], .eq), (['<'], .lt), (['>'], .gt), (['+'], .plus), (['-'], .minus), (['*'], .star),
    (['/'], .slash), (['%'], .percent), (['('], .leftParen), ([')'], .rightParen),
    ([','], .comma)]

inductive Token where
  | keyword (keyword : Keyword)
  | ident (name : String)
  | qualified (parts : List String)
  | tableWildcard (table : String)
  | param (name : String)
  | str (value : String)
  | int (digits : String)
  | decimal (digits : String)
  | symbol (symbol : Symbol)
deriving DecidableEq, Repr

def Token.describe : Token → String
  | .keyword word => word.spelling
  | .ident name => name
  | .qualified parts => Text.joinWith "." parts
  | .tableWildcard table => table ++ ".*"
  | .param name => "@" ++ name
  | .str value => "'" ++ value ++ "'"
  | .int digits => digits
  | .decimal digits => digits
  | .symbol mark => mark.spelling

structure Lexeme where
  token : Token
  span : Span
deriving DecidableEq, Repr

end PipeSql

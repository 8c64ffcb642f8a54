import Kei.Syntax.Concrete

/-!
# The grammar

The sentences of the language, by the rules of its grammar:

    program    := statement*
    statement  := "exit" "(" expr ")" ";"
                | "let" ident "=" expr ";"
                | ident "=" expr ";"
                | scope
                | "if" "(" expr ")" scope chain?
    scope      := "{" statement* "}"
    chain      := "elif" "(" expr ")" scope chain?
                | "else" scope
    expr       := term (binop expr)*
    term       := int_lit | ident | "(" expr ")"

The grammar says nothing of how operators group, so an expression may have several derivations. A
derivation also bounds how many scopes and parenthesised terms of the sentence enclose each other.
-/

namespace Kei

/-- What the rules of the grammar define. -/
inductive Category
  | program
  | statement
  | scope
  /-- What may follow the first branch of a conditional. -/
  | chain
  | expr
  /-- Operators, each with the expression after it. -/
  | operations
  | term

/-- `Derives c n w`: the rules for `c` derive `w`, in which at most `n` scopes and parenthesised
terms enclose each other. -/
inductive Derives : Category → Nat → List Symbol → Prop
  | done : Derives .program n []
  | next : Derives .statement n w → Derives .program n v → Derives .program n (w ++ v)
  | exit : Derives .expr n w →
    Derives .statement n
      (.fixed .exitWord :: .fixed .leftParen :: (w ++ [.fixed .rightParen, .fixed .semicolon]))
  | declare (name : Lexeme) : Derives .expr n w →
    Derives .statement n
      (.fixed .letWord :: (.identifier, some name) :: .fixed .equals :: (w ++ [.fixed .semicolon]))
  | assign (name : Lexeme) : Derives .expr n w →
    Derives .statement n ((.identifier, some name) :: .fixed .equals :: (w ++ [.fixed .semicolon]))
  | block : Derives .scope n w → Derives .statement n w
  | cond : Derives .expr n w → Derives .scope n v → Derives .chain n u →
    Derives .statement n
      (.fixed .ifWord :: .fixed .leftParen :: (w ++ .fixed .rightParen :: (v ++ u)))
  | scope : Derives .program n w →
    Derives .scope (n + 1) (.fixed .leftBrace :: (w ++ [.fixed .rightBrace]))
  | stop : Derives .chain n []
  | elif : Derives .expr n w → Derives .scope n v → Derives .chain n u →
    Derives .chain n
      (.fixed .elifWord :: .fixed .leftParen :: (w ++ .fixed .rightParen :: (v ++ u)))
  | otherwise : Derives .scope n v → Derives .chain n (.fixed .elseWord :: v)
  | expr : Derives .term n w → Derives .operations n v → Derives .expr n (w ++ v)
  | last : Derives .operations n []
  | operation (op : Op) : Derives .expr n w → Derives .operations n v →
    Derives .operations n (.fixed op.kind :: (w ++ v))
  | int (literal : Lexeme) : Derives .term n [(.integer, some literal)]
  | ident (name : Lexeme) : Derives .term n [(.identifier, some name)]
  | paren : Derives .expr n w →
    Derives .term (n + 1) (.fixed .leftParen :: (w ++ [.fixed .rightParen]))

/-- The tokens are a program, however deeply it is nested. -/
def Grammatical (tokens : List Token) : Prop :=
  ∃ n, Derives .program n (tokens.map Token.symbol)

end Kei

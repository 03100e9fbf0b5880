/-!
# Kinds of token

The kinds that a token of the language can have, their names, and the words that
are reserved.
-/

namespace Scriptlet

inductive Kind where
  | eof | number | string | identifier
  | openParen | closeParen | openCurly | closeCurly
  | comma | dot | dash | plus | semicolon | slash | star
  | not | notEquals | assignment | equals
  | greater | greaterEquals | less | lessEquals
  | andWord | classWord | elseWord | falseWord | forWord | funWord | ifWord | nilWord
  | orWord | printWord | returnWord | superWord | thisWord | trueWord | varWord | whileWord
deriving DecidableEq, Repr

namespace Kind

def name : Kind → String
  | eof => "EOF"
  | number => "Number"
  | string => "String"
  | identifier => "Identifier"
  | openParen => "OpenParen"
  | closeParen => "CloseParen"
  | openCurly => "OpenCurly"
  | closeCurly => "CloseCurly"
  | comma => "Comma"
  | dot => "Dot"
  | dash => "Dash"
  | plus => "Plus"
  | semicolon => "Semicolon"
  | slash => "Slash"
  | star => "Star"
  | not => "Not"
  | notEquals => "NotEquals"
  | assignment => "Assignment"
  | equals => "Equals"
  | greater => "Greater"
  | greaterEquals => "GreaterEquals"
  | less => "Less"
  | lessEquals => "LessEquals"
  | andWord => "And"
  | classWord => "Class"
  | elseWord => "Else"
  | falseWord => "False"
  | forWord => "For"
  | funWord => "Fun"
  | ifWord => "If"
  | nilWord => "Nil"
  | orWord => "Or"
  | printWord => "Print"
  | returnWord => "Return"
  | superWord => "Super"
  | thisWord => "This"
  | trueWord => "True"
  | varWord => "Var"
  | whileWord => "While"

def reserved : List (String × Kind) :=
  [("and", andWord), ("class", classWord), ("else", elseWord), ("false", falseWord),
   ("for", forWord), ("fun", funWord), ("if", ifWord), ("nil", nilWord),
   ("or", orWord), ("print", printWord), ("return", returnWord), ("super", superWord),
   ("this", thisWord), ("true", trueWord), ("var", varWord), ("while", whileWord)]

def ofReserved? (word : String) : Option Kind := reserved.lookup word

def ofWord (word : String) : Kind := (ofReserved? word).getD identifier

def all : List Kind :=
  [eof, number, string, identifier, openParen, closeParen, openCurly, closeCurly,
   comma, dot, dash, plus, semicolon, slash, star, not, notEquals, assignment, equals,
   greater, greaterEquals, less, lessEquals, andWord, classWord, elseWord, falseWord,
   forWord, funWord, ifWord, nilWord, orWord, printWord, returnWord, superWord,
   thisWord, trueWord, varWord, whileWord]

def ofName? (name : String) : Option Kind := all.find? fun kind => kind.name == name

end Kind

end Scriptlet

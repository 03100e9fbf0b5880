import Scriptlet.Source
import Scriptlet.Token
import Scriptlet.Text.Quoted
/-!
# Diagnostics

A diagnostic is what went wrong and where.  Its cause is a value, and each cause
has one name, one message and at most one tip.
-/

namespace Scriptlet

inductive Stage where
  | lex | parse | runtime
deriving DecidableEq, Repr

def Stage.name : Stage → String
  | lex => "LexError"
  | parse => "ParseError"
  | runtime => "RuntimeError"

/-- What can go wrong.  A failing operator is named by its token, and an operand by
the text of its value. -/
inductive Fault where
  | unexpectedCharacter (c : Char)
  | unterminatedString
  | malformedNumber (numeral : String)
  | expectedToken (message found : String)
  | expectedExpression (found : String)
  | operandMustBeNumber (operator : Token) (operand : String)
  | operandsMustBeNumbers (operator : Token) (operand : String)
  | operandsMustBeNumbersOrStrings (operator : Token)
  | unsupportedOperator (operator : Token)
  | outputFailed (reason : String)
deriving DecidableEq

namespace Fault

def stage : Fault → Stage
  | unexpectedCharacter _ | unterminatedString | malformedNumber _ => .lex
  | expectedToken _ _ | expectedExpression _ => .parse
  | operandMustBeNumber _ _ | operandsMustBeNumbers _ _ | operandsMustBeNumbersOrStrings _
  | unsupportedOperator _ | outputFailed _ => .runtime

def name : Fault → String
  | unexpectedCharacter _ => "UnexpectedCharacter"
  | unterminatedString => "UnterminatedString"
  | malformedNumber _ => "NumberParseError"
  | expectedToken _ _ => "ExpectedToken"
  | expectedExpression _ => "ExpectedExpression"
  | operandMustBeNumber _ _ => "OperandMustBeNumber"
  | operandsMustBeNumbers _ _ => "OperandsMustBeNumbers"
  | operandsMustBeNumbersOrStrings _ => "OperandsMustBeNumbersOrStrings"
  | unsupportedOperator _ => "UnsupportedOperator"
  | outputFailed _ => "OutputFailed"

def message : Fault → String
  | unexpectedCharacter c => "unexpected character " ++ Text.quotedChar c
  | unterminatedString => "unterminated string"
  | malformedNumber numeral => "error parsing number: " ++ Text.quoted numeral
  | expectedToken message _ => message
  | expectedExpression _ => "expected expression"
  | operandMustBeNumber _ _ => "operand must be a number"
  | operandsMustBeNumbers _ operand => operand ++ " operand must be a number"
  | operandsMustBeNumbersOrStrings _ => "operands must be two numbers or two strings"
  | unsupportedOperator operator => "unsupported operator " ++ operator.lexeme
  | outputFailed reason => "failed to write output: " ++ reason

private def ticked (text : String) : String := "`" ++ text ++ "`"

def tip? : Fault → Option String
  | unexpectedCharacter c =>
    some ("Character " ++ ticked (String.singleton c) ++ " is not part of the language")
  | unterminatedString => some ("String is missing its closing " ++ ticked "\"")
  | malformedNumber numeral => some ("Invalid number: " ++ ticked numeral)
  | expectedToken message found => some ("Found " ++ ticked found ++ ", " ++ message)
  | expectedExpression found =>
    some ("Unexpected token: " ++ ticked found ++ ", expected a literal or " ++ ticked "(")
  | operandMustBeNumber operator operand =>
    some ("Operator " ++ ticked operator.lexeme ++ " cannot be applied to " ++ ticked operand)
  | operandsMustBeNumbers operator operand =>
    some ("Operator " ++ ticked operator.lexeme ++ " received non-number " ++ ticked operand)
  | unsupportedOperator operator =>
    some (ticked operator.lexeme ++ " is not an operator in this position")
  | operandsMustBeNumbersOrStrings _ | outputFailed _ => none

def operator? : Fault → Option Token
  | operandMustBeNumber operator _ | operandsMustBeNumbers operator _
  | operandsMustBeNumbersOrStrings operator | unsupportedOperator operator => some operator
  | _ => none

def operand? : Fault → Option String
  | operandMustBeNumber _ operand | operandsMustBeNumbers _ operand => some operand
  | _ => none

end Fault

structure Diagnostic where
  fault : Fault
  position : Position
deriving DecidableEq

namespace Diagnostic

def summary (d : Diagnostic) : String :=
  d.fault.stage.name ++ " (line " ++ toString d.position.line ++ "): " ++ d.fault.message

end Diagnostic

end Scriptlet

import Bourse.Filter.Expr
import Bourse.Filter.Token
import Bourse.Number.Numeral
import Bourse.Text.Quoted
/-!
Parsing of filter expressions:

    expression := term ((and | or) term)*
    term       := comparison | "(" expression ")"
    comparison := identifier operator number

The two connectives share one level and group to the left.
-/
namespace Bourse.Filter

/-- What the parser was looking for. -/
inductive Expected where
  | fieldName
  | operatorAfter (field : String)
  | numberAfter (field operator : String)
  | closing
  | connectiveOrEnd

/-- The reasons why a text is no filter expression. -/
inductive SyntaxError where
  | lexical (fault : LexFault) (position : Int)
  | unexpected (expected : Expected) (found : Token)
  /-- A closing parenthesis without an opening one. -/
  | unbalanced (position : Int)
  | badNumber (text : String) (position : Int)
  | tooDeep

namespace Expected

/-- The words for what was expected. -/
def message : Expected → String
  | fieldName => "field name"
  | operatorAfter field => s!"comparison operator after '{field}'"
  | numberAfter field operator => s!"number after '{field} {operator}'"
  | closing => "')'"
  | connectiveOrEnd => "'and', 'or' or end of expression"

end Expected

/-- The words for a token in a message. -/
def Token.describe (t : Token) : String :=
  if t.kind = .eof then "end of expression" else s!"'{t.value}'"

namespace SyntaxError

/-- The text of an error. -/
def message : SyntaxError → String
  | lexical .loneBang position =>
    s!"Unexpected character '!' at position {position} (did you mean '!='?)"
  | lexical (.stray c) position => s!"Unexpected character '{c}' at position {position}"
  | unexpected expected found => s!"Expected {expected.message}, got {found.describe}"
  | unbalanced position => s!"Unbalanced ')' at position {position}"
  | badNumber text _ => s!"Invalid number '{text}'"
  | tooDeep => "Expression nested too deeply"

/-- The place of an error, where it has one. -/
def position? : SyntaxError → Option Int
  | lexical _ position => some position
  | unexpected _ found => some found.position
  | unbalanced position => some position
  | badNumber _ position => some position
  | tooDeep => none

end SyntaxError

/-- The operators of comparisons. -/
def operators : List String := ["<", ">", "<=", ">=", "=", "!="]

/-- The deepest nesting of parentheses. -/
def nestingLimit : Nat := 480

/-- An expression and the tokens after it, fewer than those it was read from. -/
abbrev Parsed (input : List Token) := { out : Expr × List Token // out.2.length < input.length }

/-- Reads a comparison. `stop` is the end token, which stands behind the list. -/
def comparison (stop : Token) : (input : List Token) → Except SyntaxError (Parsed input)
  | [] => .error (.unexpected .fieldName stop)
  | name :: rest =>
    if name.kind ≠ .identifier then .error (.unexpected .fieldName name)
    else match rest with
      | [] => .error (.unexpected (.operatorAfter name.value) stop)
      | op :: rest =>
        if op.kind ≠ .operator ∨ op.value ∉ operators then
          .error (.unexpected (.operatorAfter name.value) op)
        else match rest with
          | [] => .error (.unexpected (.numberAfter name.value op.value) stop)
          | literal :: rest =>
            if literal.kind ≠ .number then
              .error (.unexpected (.numberAfter name.value op.value) literal)
            else match Numeral.float? literal.value.toList with
              | none => .error (.badNumber literal.value literal.position)
              | some x =>
                .ok ⟨(.comparison op.value name.value x, rest),
                  by simp only [List.length_cons]; omega⟩

mutual

/-- Reads a comparison, or an expression in parentheses at most `depth` deep. -/
def term (stop : Token) (depth : Nat) (input : List Token) : Except SyntaxError (Parsed input) :=
  match input with
  | [] => comparison stop []
  | opening :: rest =>
    if opening.kind = .lparen then
      if depth = 0 then .error .tooDeep
      else match expression stop (depth - 1) rest with
        | .error fault => .error fault
        | .ok ⟨(_, []), _⟩ => .error (.unexpected .closing stop)
        | .ok ⟨(inner, closing :: rest'), h⟩ =>
          if closing.kind = .rparen then
            .ok ⟨(inner, rest'), by simp only [List.length_cons] at h ⊢; omega⟩
          else .error (.unexpected .closing closing)
    else comparison stop (opening :: rest)
termination_by (input.length, 0)

/-- Reads an expression. -/
def expression (stop : Token) (depth : Nat) (input : List Token) :
    Except SyntaxError (Parsed input) :=
  match term stop depth input with
  | .error fault => .error fault
  | .ok ⟨(left, rest), h⟩ => chain stop depth left rest input.length h
termination_by (input.length, 1)
decreasing_by
  · decreasing_tactic
  · have : rest.length < input.length := h
    simp only [Prod.lex_def]; omega

/-- Goes on with connectives and terms after the left side of a combination. -/
def chain (stop : Token) (depth : Nat) (left : Expr) (input : List Token) (bound : Nat)
    (h : input.length < bound) :
    Except SyntaxError { out : Expr × List Token // out.2.length < bound } :=
  match input with
  | [] => .ok ⟨(left, []), h⟩
  | connective :: rest =>
    if connective.kind = .and ∨ connective.kind = .or then
      match term stop depth rest with
      | .error fault => .error fault
      | .ok ⟨(right, rest'), h'⟩ =>
        have shorter : rest'.length < rest.length := h'
        chain stop depth
          (if connective.kind = .and then Expr.and left right else Expr.or left right) rest' bound
          (by simp only [List.length_cons] at h; omega)
    else .ok ⟨(left, connective :: rest), h⟩
termination_by (input.length, 2)
decreasing_by all_goals simp only [List.length_cons, Prod.lex_def]; omega

end

/-- The tokens before the end token, and the end token; one at position 0 is supplied if the list
does not end with one. -/
def splitEnd (input : List Token) : List Token × Token :=
  let body := input.takeWhile (·.kind ≠ .eof)
  (body, (input.drop body.length).headD ⟨.eof, "", 0⟩)

/-- Parses a list of tokens up to its first end token. -/
def parse (input : List Token) : Except SyntaxError Expr :=
  let (body, stop) := splitEnd input
  match expression stop nestingLimit body with
  | .error fault => .error fault
  | .ok ⟨(e, []), _⟩ => .ok e
  | .ok ⟨(_, trailing :: _), _⟩ =>
    if trailing.kind = .rparen then .error (.unbalanced trailing.position)
    else .error (.unexpected .connectiveOrEnd trailing)

/-- Parses a text. -/
def parseText (text : String) : Except SyntaxError Expr :=
  match tokens text with
  | .error (fault, position) => .error (.lexical fault position)
  | .ok list => parse list

end Bourse.Filter

namespace Bourse

/-- A filter: a text and its expression; a blank text has none and lets every quote pass. -/
structure Filter where
  source : String
  tree : Option Filter.Expr

namespace Filter

/-- Compiles a text. -/
def compile (source : String) : Except SyntaxError Filter :=
  if source.toList.all Text.isBlank then .ok ⟨source, none⟩
  else match parseText source with
    | .error fault => .error fault
    | .ok tree => .ok ⟨source, some tree⟩

/-- Whether a quote passes a filter. -/
def passes (f : Filter) (quote : Quote) : Except EvalError Bool :=
  match f.tree with
  | none => .ok true
  | some tree => evaluate quote tree

/-- The items for which a test with errors holds, in order; the first error wins. -/
def keep {α ε : Type} (test : α → Except ε Bool) : List α → Except ε (List α)
  | [] => .ok []
  | a :: rest => do
    let truth ← test a
    let kept ← keep test rest
    return if truth then a :: kept else kept

/-- The quotes that pass a filter, in order. -/
def select (f : Filter) (quotes : List Quote) : Except EvalError (List Quote) :=
  keep f.passes quotes

/-- The text that stands for a filter. -/
def describe (f : Filter) : String := s!"CompiledFilter({Text.quoted f.source})"

end Filter

end Bourse

import DeferredAttributes.Text.Blank
import DeferredAttributes.Decimal.Layout
import DeferredAttributes.Decimal.Reading
import DeferredAttributes.Expression.Operator

-- Expressions as tokens. The first character that is no blank decides what a token is.
namespace DeferredAttributes.Expression
open Text Decimal

inductive Token where
  | identifier (name : String)
  | value (number : Float)
  | operator (op : Operator)
  | openBracket
  | closeBracket
deriving Repr

-- Offsets are counted in bytes from the start of the expression.
inductive TokenError where
  | unexpectedCharacter (character : Char) (offset : Nat)
  | invalidNumber (literal : String) (offset : Nat)
  | emptyIdentifier (offset : Nat)
deriving Repr, DecidableEq

def TokenError.offset : TokenError → Nat
  | .unexpectedCharacter _ offset | .invalidNumber _ offset | .emptyIdentifier offset => offset

def TokenError.message : TokenError → String
  | .unexpectedCharacter character _ => "unexpected character '" ++ character.toString ++ "'"
  | .invalidNumber literal _ => "invalid numeric literal '" ++ literal ++ "'"
  | .emptyIdentifier _ => "identifier expected after marker"

def isLetter (c : Char) : Bool := ('a' ≤ c && c ≤ 'z') || ('A' ≤ c && c ≤ 'Z')

def isNameChar (c : Char) : Bool := isLetter c || isDigit c || c == '_'

def isOperatorChar (c : Char) : Bool :=
  c == '|' || c == '&' || c == '+' || c == '-' || c == '!' ||
  c == '<' || c == '>' || c == '=' || c == '*' || c == '/'

def isBoundary (c : Char) : Bool := isBlank c || c == '(' || c == ')' || isOperatorChar c

def wellFormed (literal : List Char) : Bool :=
  literal.all (fun c => isDigit c || c == '.') && literal.count '.' ≤ 1 && literal.getLast? != some '.'

def literalValue (literal : List Char) : Float :=
  ofPlain (literal.takeWhile isDigit) ((literal.dropWhile isDigit).drop 1)

def operatorOf? (c : Char) (next : Option Char) : Option (Operator × Nat) :=
  match c, next with
  | '|', some '|' => some (.binary .or,2)
  | '&', some '&' => some (.binary .and,2)
  | '<', some '=' => some (.binary .lessEqual,2)
  | '>', some '=' => some (.binary .greaterEqual,2)
  | '=', some '=' => some (.binary .equal,2)
  | '!', some '=' => some (.binary .notEqual,2)
  | '!', _ => some (.not,1)
  | '<', _ => some (.binary .less,1)
  | '>', _ => some (.binary .greater,1)
  | '+', _ => some (.binary .add,1)
  | '-', _ => some (.binary .subtract,1)
  | '*', _ => some (.binary .multiply,1)
  | '/', _ => some (.binary .divide,1)
  | _, _ => none

-- Only a path, which starts with `@`, goes on over slashes and points.
def identifierRest (first : Char) (cs : List Char) : List Char :=
  cs.takeWhile fun c => isNameChar c || (first == '@' && (c == '/' || c == '.'))

def lexeme (offset : Nat) (first : Char) (cs : List Char) : Except TokenError (Token × Nat) :=
  if isDigit first then
    let literal := first :: cs.takeWhile fun c => !isBoundary c
    if wellFormed literal then .ok (.value (literalValue literal),literal.length)
    else .error (.invalidNumber (String.ofList literal) offset)
  else if first == '(' then .ok (.openBracket,1)
  else if first == ')' then .ok (.closeBracket,1)
  else if isLetter first || first == '@' || first == '$' then
    let name := first :: identifierRest first cs
    if name.length == 1 && !isLetter first then .error (.emptyIdentifier offset)
    else .ok (.identifier (String.ofList name),name.length)
  else match operatorOf? first cs.head? with
    | some (operator,length) => .ok (.operator operator,length)
    | none => .error (.unexpectedCharacter first offset)

structure Cursor where
  rest : List Char
  offset : Nat

def Cursor.start (text : List Char) : Cursor := ⟨text,0⟩

def Cursor.advance (c : Cursor) (count : Nat) : Cursor :=
  ⟨c.rest.drop count,c.offset + bytes (c.rest.take count)⟩

def Cursor.skipBlanks (c : Cursor) : Cursor := c.advance (c.rest.takeWhile isBlank).length

-- Takes the next token, none at the end. Blanks before a token count as taken,
-- also before one that is rejected; the rejected token itself stays.
def Cursor.next (c : Cursor) : Except TokenError (Option Token) × Cursor :=
  let c := c.skipBlanks
  match c.rest with
  | [] => (.ok none,c)
  | first :: cs =>
    match lexeme c.offset first cs with
    | .ok (token,length) => (.ok (some token),c.advance length)
    | .error error => (.error error,c)

theorem operatorOf_pos {c : Char} {next : Option Char} {operator : Operator} {length : Nat}
    (found : operatorOf? c next = some (operator,length)) : 0 < length := by
  unfold operatorOf? at found
  split at found <;> simp at found <;> omega

theorem lexeme_pos {offset : Nat} {first : Char} {cs : List Char} {token : Token} {length : Nat}
    (found : lexeme offset first cs = .ok (token,length)) : 0 < length := by
  unfold lexeme at found
  split at found
  · dsimp only at found
    split at found
    · cases found; simp
    · cases found
  · split at found
    · cases found; simp
    · split at found
      · cases found; simp
      · split at found
        · dsimp only at found
          split at found
          · cases found
          · cases found; simp
        · split at found
          · rename_i operator _ known
            cases found
            exact operatorOf_pos known
          · cases found

theorem next_shorter {c d : Cursor} {token : Token} (taken : c.next = (.ok (some token),d)) :
    d.rest.length < c.rest.length := by
  unfold Cursor.next at taken
  dsimp only at taken
  split at taken
  · cases taken
  · rename_i first cs rest
    split at taken
    · rename_i length found
      cases taken
      have pos := lexeme_pos found
      have skipped : (c.skipBlanks).rest.length ≤ c.rest.length := by
        simp [Cursor.skipBlanks,Cursor.advance]
      simp only [Cursor.advance,List.length_drop]
      rw [rest] at skipped ⊢
      simp only [List.length_cons] at *
      omega
    · cases taken

structure Lexeme where
  token : Token
  stop : Nat

inductive Ending where
  | finished (length : Nat)
  | rejected (error : TokenError)

structure Lexed where
  lexemes : List Lexeme
  ending : Ending

def Cursor.lexed (c : Cursor) : Lexed :=
  match _ : c.next with
  | (.ok (some token),d) =>
    let after := d.lexed
    ⟨⟨token,d.offset⟩ :: after.lexemes,after.ending⟩
  | (.ok none,d) => ⟨[],.finished d.offset⟩
  | (.error error,_) => ⟨[],.rejected error⟩
termination_by c.rest.length
decreasing_by exact next_shorter ‹_›

def Token.describe : Token → String
  | .identifier name => "identifier '" ++ name ++ "'"
  | .value number => "value " ++ inMessages.text number
  | .operator op => "operator '" ++ op.symbol ++ "'"
  | .openBracket => "'('"
  | .closeBracket => "')'"

end DeferredAttributes.Expression

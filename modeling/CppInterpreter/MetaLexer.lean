import CppInterpreter.Strings

/-!
# The lexer of meta commands

`MetaLexer` walks a NUL-terminated buffer with a raw cursor; nothing but the NUL
bounds it. The bytes that may be read are the contents and that NUL. Reading at any
other index is a fault that names the index, so a call that yields a token has read
inside the buffer. Cursors and token starts are offsets from the start of the buffer.

Token lengths and values are 32-bit unsigned, as declared; a length is narrowed when
it is stored. An assertion does not stop a call here, as in a build without them: a
call reports whether every assertion it evaluated held.
-/

namespace CppInterpreter.MetaLexer

open Bytes

/-- `tok::TokenKind`, in the order of the source. -/
inductive TokenKind where
  | l_square
  | r_square
  | l_paren
  | r_paren
  | l_brace
  | r_brace
  | stringlit
  | charlit
  | comma
  | dot
  | excl_mark
  | quest_mark
  | slash
  | backslash
  | less
  | greater
  | ampersand
  | hash
  | ident
  | raw_ident
  | comment
  | l_comment
  | r_comment
  | space
  | constant
  | at_
  | asterik
  | semicolon
  | eof
  | unknown
deriving DecidableEq, Repr

/-- The contents of a NUL-terminated buffer, without the NUL. -/
structure Buffer where
  bytes : Bytes
  nulFree : 0 ∉ bytes

/-- A read at an index behind the terminating NUL. -/
structure OutOfBounds where
  index : Nat
deriving DecidableEq, Repr

structure Token where
  kind : TokenKind
  bufStart : Nat
  length : UInt32
  value : UInt32
deriving DecidableEq, Repr

/-- The token that a call leaves, the cursor behind it, and whether the assertions
evaluated on the way held. -/
structure Lexed where
  token : Token
  curPos : Nat
  asserted : Bool
deriving DecidableEq, Repr

/-- `Token::startToken`; the value is `~0U` until it is computed. -/
def startToken (pos : Nat) : Token := ⟨.unknown, pos, 0, 0xFFFFFFFF⟩

/-- `Token::setLength`, whose parameter narrows the pointer difference it is given. -/
def Token.setLength (token : Token) (length : Nat) : Token :=
  { token with length := UInt32.ofNat length }

/-- `Token::setKind`. -/
def Token.setKind (token : Token) (kind : TokenKind) : Token := { token with kind := kind }

/-- The number of bytes before the terminating NUL. -/
def Buffer.size (buffer : Buffer) : Nat := buffer.bytes.length

/-- The bytes that may be read from a position on, the NUL included. -/
def Buffer.readable (buffer : Buffer) (pos : Nat) : Bytes := (buffer.bytes ++ [0]).drop pos

/-- The byte at a position, as `*pos` reads it. -/
def Buffer.read (buffer : Buffer) (pos : Nat) : Except OutOfBounds UInt8 :=
  match buffer.readable pos with
  | [] => .error ⟨pos⟩
  | ch :: _ => .ok ch

/-- `Token::getIdent`: the text of a token, as long as its recorded length. -/
def getIdent (buffer : Buffer) (token : Token) : Bytes :=
  (buffer.readable token.bufStart).take token.length.toNat

def backslash : UInt8 := '\\'.toUInt8

def isQuote (ch : UInt8) : Bool := ch = '"'.toUInt8 || ch = '\''.toUInt8
def isDigit (ch : UInt8) : Bool := '0'.toUInt8 ≤ ch && ch ≤ '9'.toUInt8
def isBlank (ch : UInt8) : Bool := ch = ' '.toUInt8 || ch = '\t'.toUInt8

/-- The letters and the underscore, which `lex` dispatches to `lexIdentifier`. -/
def isIdentHead (ch : UInt8) : Bool :=
  ch = '_'.toUInt8 || ('A'.toUInt8 ≤ ch && ch ≤ 'Z'.toUInt8) || ('a'.toUInt8 ≤ ch && ch ≤ 'z'.toUInt8)

/-- The loop condition of `lexIdentifier`. -/
def isIdentBody (ch : UInt8) : Bool := isIdentHead ch || isDigit ch

/-- The bytes that `lex` hands to `lexPunctuator` without looking further. -/
def isPunctuator (ch : UInt8) : Bool := ch ∈ text "[]()\x7b\x7d\\,.!?<>&#@;"

/-- The switch of `lexPunctuator`. -/
def punctuators : List (UInt8 × TokenKind) :=
  [('['.toUInt8, .l_square), (']'.toUInt8, .r_square), ('('.toUInt8, .l_paren),
    (')'.toUInt8, .r_paren), ('{'.toUInt8, .l_brace), ('}'.toUInt8, .r_brace),
    ('"'.toUInt8, .stringlit), ('\''.toUInt8, .charlit), (','.toUInt8, .comma),
    ('.'.toUInt8, .dot), ('!'.toUInt8, .excl_mark), ('?'.toUInt8, .quest_mark),
    ('/'.toUInt8, .slash), ('\\'.toUInt8, .backslash), ('<'.toUInt8, .less),
    ('>'.toUInt8, .greater), ('@'.toUInt8, .at_), ('&'.toUInt8, .ampersand),
    ('#'.toUInt8, .hash), ('*'.toUInt8, .asterik), (';'.toUInt8, .semicolon)]

/-- `while (p(*cur_pos_)) cur_pos_++;` over the bytes readable from the cursor. -/
def skipWhile (p : UInt8 → Bool) : Bytes → Nat → Except OutOfBounds Nat
  | [], pos => .error ⟨pos⟩
  | ch :: rest, pos => if p ch then skipWhile p rest (pos + 1) else .ok pos

/-- `while (p(ch)) ch = *cur_pos_++;` for a byte read before. The cursor ends one byte
behind the byte that stopped the loop. -/
def readWhile (p : UInt8 → Bool) : UInt8 → Bytes → Nat → Except OutOfBounds Nat
  | ch, [], pos => if p ch then .error ⟨pos⟩ else .ok pos
  | ch, next :: rest, pos => if p ch then readWhile p next rest (pos + 1) else .ok pos

/-- The loop of `lexQuotedStringAndAdvance`: the cursor it ends with, and whether it
met the closing quote rather than the NUL. A backslash moves the cursor by two bytes
without a look at the second one. -/
def quotedLoop (quote : UInt8) : Bytes → Nat → Except OutOfBounds (Nat × Bool)
  | [], pos => .error ⟨pos⟩
  | ch :: rest, pos =>
    if ch = backslash then
      match rest with
      | [] => .error ⟨pos + 2⟩
      | _ :: rest => quotedLoop quote rest (pos + 2)
    else if ch = 0 then .ok (pos, false)
    else if ch = quote then .ok (pos + 1, true)
    else quotedLoop quote rest (pos + 1)

/-- The three assertions about a complete literal: its text opens and closes with the
same quote. An empty text has no first byte to assert anything about. -/
def quotedAsserted (text : Bytes) : Bool :=
  match text.head?, text.getLast? with
  | some front, some back => isQuote front && isQuote back && front = back
  | _, _ => false

def lexPunctuator (buffer : Buffer) (pos curPos : Nat) : Except OutOfBounds Lexed := do
  let ch ← buffer.read pos
  let token := (startToken pos).setLength 1
  match punctuators.lookup ch with
  | some kind => return ⟨token.setKind kind, curPos, true⟩
  | none =>
    if ch = 0 then return ⟨(token.setKind .eof).setLength 0, curPos, true⟩
    else return ⟨token.setLength 0, curPos, true⟩

def lexQuotedStringAndAdvance (buffer : Buffer) (curPos : Nat) (token : Token) :
    Except OutOfBounds Lexed := do
  let quote ← buffer.read (curPos - 1)
  let kind : TokenKind := if quote = '"'.toUInt8 then .stringlit else .charlit
  let token := { token.setKind kind with bufStart := curPos - 1 }
  match ← quotedLoop quote (buffer.readable curPos) curPos with
  | (curPos, false) =>
    return ⟨({ token with bufStart := curPos }.setKind .eof).setLength 0, curPos, isQuote quote⟩
  | (curPos, true) =>
    let token := token.setLength (curPos - token.bufStart)
    return ⟨token, curPos, isQuote quote && quotedAsserted (getIdent buffer token)⟩

def lexConstant (buffer : Buffer) (ch : UInt8) (curPos : Nat) (token : Token) :
    Except OutOfBounds Lexed := do
  let curPos ← readWhile isDigit ch (buffer.readable curPos) curPos
  let curPos := curPos - 1
  return ⟨(token.setLength (curPos - token.bufStart)).setKind .constant, curPos, true⟩

/-- An identifier keeps the unknown kind when its recorded length is zero. -/
def lexIdentifier (buffer : Buffer) (ch : UInt8) (curPos : Nat) (token : Token) :
    Except OutOfBounds Lexed := do
  let curPos ← readWhile isIdentBody ch (buffer.readable curPos) curPos
  let curPos := curPos - 1
  let token := token.setLength (curPos - token.bufStart)
  return ⟨if token.length ≠ 0 then token.setKind .ident else token, curPos, true⟩

def lexEndOfFile (ch : UInt8) (curPos : Nat) (token : Token) : Lexed :=
  ⟨if ch = 0 then (token.setKind .eof).setLength 1 else token, curPos, true⟩

/-- The blanks exclude the NUL, so the second loop condition of the source is implied. -/
def skipWhiteSpace (buffer : Buffer) (curPos : Nat) : Except OutOfBounds Nat :=
  skipWhile (fun ch => isBlank ch && ch ≠ 0) (buffer.readable curPos) curPos

def lexWhitespace (buffer : Buffer) (curPos : Nat) (token : Token) : Except OutOfBounds Lexed := do
  let curPos ← skipWhiteSpace buffer curPos
  return ⟨(token.setLength (curPos - token.bufStart)).setKind .space, curPos, true⟩

/-- `MetaLexer::lex`, with the cases of its switch in the order of the source. -/
def lex (buffer : Buffer) (curPos : Nat) : Except OutOfBounds Lexed := do
  let token := startToken curPos
  let ch ← buffer.read curPos
  let curPos := curPos + 1
  if isQuote ch then lexQuotedStringAndAdvance buffer curPos token
  else if isPunctuator ch then lexPunctuator buffer (curPos - 1) curPos
  else if ch = '/'.toUInt8 then
    let next ← buffer.read curPos
    if next = '/'.toUInt8 ∨ next = '*'.toUInt8 then
      let kind : TokenKind := if next = '/'.toUInt8 then .comment else .l_comment
      return ⟨(token.setKind kind).setLength 2, curPos + 1, true⟩
    else lexPunctuator buffer (curPos - 1) curPos
  else if ch = '*'.toUInt8 then
    let next ← buffer.read curPos
    if next = '/'.toUInt8 then
      return ⟨(token.setKind .r_comment).setLength 2, curPos + 1, true⟩
    else lexPunctuator buffer (curPos - 1) curPos
  else if isDigit ch then lexConstant buffer ch curPos token
  else if isIdentHead ch then lexIdentifier buffer ch curPos token
  else if isBlank ch then lexWhitespace buffer curPos token
  else if ch = 0 then return lexEndOfFile ch curPos token
  else return ⟨token, curPos, true⟩

/-- `MetaLexer::lexAnyString`, which asserts that it consumed something. -/
def lexAnyString (buffer : Buffer) (curPos : Nat) : Except OutOfBounds Lexed := do
  let token := startToken curPos
  let curPos ← skipWhile (fun ch => ch ≠ ' '.toUInt8 && ch ≠ '\t'.toUInt8 && ch ≠ 0)
    (buffer.readable curPos) curPos
  return ⟨(token.setKind .raw_ident).setLength (curPos - token.bufStart), curPos,
    token.bufStart ≠ curPos⟩

/-- `MetaLexer::readToEndOfLine`, which gives the rest of the line the requested kind. -/
def readToEndOfLine (buffer : Buffer) (kind : TokenKind) (curPos : Nat) :
    Except OutOfBounds Lexed := do
  let token := startToken curPos
  let curPos ← skipWhile (fun ch => ch ≠ '\r'.toUInt8 && ch ≠ '\n'.toUInt8 && ch ≠ 0)
    (buffer.readable curPos) curPos
  return ⟨(token.setKind kind).setLength (curPos - token.bufStart), curPos, true⟩

end CppInterpreter.MetaLexer

import Mathlib.Tactic

/-! The words of a POSIX shell: token recognition and quote removal.  A text is read a character at
a time, with the quote that is open.  An expansion is not read: a text in which an unquoted `$` or
backquote stands has no tokens here. -/

namespace ProofKit.Shell

/-- A character of a word.  Only a plain one can be a pattern, a tilde or part of a reserved
word. -/
inductive Piece where
  | plain (value : Char)
  | quoted (value : Char)
  deriving DecidableEq

namespace Piece

def value : Piece → Char
  | .plain value | .quoted value => value

def isPlain : Piece → Bool
  | .plain _ => true
  | .quoted _ => false

end Piece

abbrev Word := List Piece

/-- Quote removal. -/
def Word.text (word : Word) : List Char := word.map Piece.value

inductive Token where
  | word (word : Word)
  | operator (text : List Char)
  deriving DecidableEq

/-! ### Token recognition -/

def quote : Char := '\x27'

def doubleQuote : Char := '\x22'

def backslash : Char := '\\'

def backquote : Char := '\x60'

def operators : List (List Char) :=
  [['&'], ['|'], [';'], ['<'], ['>'], ['('], [')'], ['&', '&'], ['|', '|'], [';', ';'],
    ['<', '<'], ['>', '>'], ['<', '&'], ['>', '&'], ['<', '>'], ['>', '|'], ['<', '<', '-']]

inductive Mode where
  | plain
  /-- After a backslash outside quotes. -/
  | escape
  | single
  | double
  /-- After a backslash inside double quotes. -/
  | doubleEscape
  | comment
  | operator (text : List Char)
  deriving DecidableEq

structure Lexer where
  mode : Mode
  word : Option Word
  tokens : List Token
  deriving DecidableEq

namespace Lexer

def start : Lexer := ⟨.plain, none, []⟩

/-- A word begins here if none has. -/
def begin (self : Lexer) (mode : Mode) : Lexer := ⟨mode, some (self.word.getD []), self.tokens⟩

def push (self : Lexer) (piece : Piece) : Lexer :=
  { self with word := some (self.word.getD [] ++ [piece]) }

/-- The word ends here if one has begun. -/
def delimit (self : Lexer) : Lexer :=
  match self.word with
  | none => self
  | some word => ⟨self.mode, none, self.tokens ++ [.word word]⟩

def emit (self : Lexer) (token : Token) : Lexer := { self with tokens := self.tokens ++ [token] }

/-- A character outside quotes. -/
def unquoted (self : Lexer) (c : Char) : Option Lexer :=
  if c = quote then some (self.begin .single)
  else if c = doubleQuote then some (self.begin .double)
  else if c = backslash then some { self with mode := .escape }
  else if c = '$' ∨ c = backquote then none
  else if c = ' ' ∨ c = '\t' then some self.delimit
  else if c = '\n' then some (self.delimit.emit (.operator ['\n']))
  else if c = '#' ∧ self.word = none then some { self with mode := .comment }
  else if [c] ∈ operators then some { self.delimit with mode := .operator [c] }
  else some (self.push (.plain c))

def step (self : Lexer) (c : Char) : Option Lexer :=
  match self.mode with
  | .plain => self.unquoted c
  | .escape =>
    -- A backslash before a newline is no character at all.
    if c = '\n' then some { self with mode := .plain }
    else some { self.push (.quoted c) with mode := .plain }
  | .single =>
    if c = quote then some { self with mode := .plain } else some (self.push (.quoted c))
  | .double =>
    if c = doubleQuote then some { self with mode := .plain }
    else if c = backslash then some { self with mode := .doubleEscape }
    else if c = '$' ∨ c = backquote then none
    else some (self.push (.quoted c))
  | .doubleEscape =>
    if c = '\n' then some { self with mode := .double }
    else if c = '$' ∨ c = backquote ∨ c = doubleQuote ∨ c = backslash then
      some { self.push (.quoted c) with mode := .double }
    else some { (self.push (.quoted backslash)).push (.quoted c) with mode := .double }
  | .comment =>
    if c = '\n' then { self with mode := .plain }.unquoted c else some self
  | .operator text =>
    if text ++ [c] ∈ operators then some { self with mode := .operator (text ++ [c]) }
    else ({ self with mode := .plain }.emit (.operator text)).unquoted c

def scan (self : Lexer) (text : List Char) : Option Lexer := text.foldlM step self

def finish (self : Lexer) : Option (List Token) :=
  match self.mode with
  | .plain | .comment => some self.delimit.tokens
  | .operator text => some (self.emit (.operator text)).tokens
  | .escape | .single | .double | .doubleEscape => none

theorem scan_cons (self : Lexer) (c : Char) (text : List Char) :
    self.scan (c :: text) = (self.step c).bind fun next => next.scan text := rfl

theorem scan_append (self : Lexer) (first second : List Char) :
    self.scan (first ++ second) = (self.scan first).bind fun next => next.scan second :=
  List.foldlM_append

end Lexer

/-- The tokens of a text. -/
def lex (text : List Char) : Option (List Token) :=
  (Lexer.start.scan text).bind Lexer.finish

/-! ### Simple commands -/

def reservedWords : List (List Char) :=
  ["!", "\x7b", "\x7d", "case", "do", "done", "elif", "else", "esac", "fi", "for", "if", "in",
    "then", "until", "while"].map String.toList

def Word.isReserved (word : Word) : Bool :=
  word.all Piece.isPlain && reservedWords.contains (Word.text word)

def isNameChar (c : Char) : Bool := c.isAlphanum || c == '_'

def Piece.inName : Piece → Bool
  | .plain value => isNameChar value
  | .quoted _ => false

def Word.isAssignment (word : Word) : Bool :=
  let name := word.takeWhile Piece.inName
  match name with
  | [] => false
  | first :: _ => !first.value.isDigit && (word.drop name.length).head? == some (.plain '=')

@[simp] theorem Word.text_quoted (text : List Char) : Word.text (text.map .quoted) = text := by
  rw [Word.text, List.map_map]
  exact List.map_id text

@[simp] theorem Word.text_plain (c : Char) (word : Word) :
    Word.text (.plain c :: word) = c :: Word.text word := rfl

theorem Word.isReserved_quoted (text : List Char) : Word.isReserved (text.map .quoted) = false := by
  cases text with
  | nil => decide
  | cons c text => rfl

theorem Word.isAssignment_quoted (text : List Char) :
    Word.isAssignment (text.map .quoted) = false := by
  cases text with
  | nil => rfl
  | cons c text => rfl

def Token.word? : Token → Option Word
  | .word found => some found
  | .operator _ => none

def simpleCommand (tokens : List Token) : Option (List Word) :=
  match tokens.mapM Token.word? with
  | some (first :: rest) =>
    if Word.isReserved first || Word.isAssignment first then none else some (first :: rest)
  | _ => none

theorem mapM_word (words : List Word) : (words.map Token.word).mapM Token.word? = some words := by
  induction words with
  | nil => rfl
  | cons word words ih =>
    rw [List.map_cons, List.mapM_cons, ih]
    rfl

theorem simpleCommand_words {first : Word} {rest : List Word}
    (hr : Word.isReserved first = false) (ha : Word.isAssignment first = false) :
    simpleCommand ((first :: rest).map .word) = some (first :: rest) := by
  rw [simpleCommand, mapM_word]
  simp [hr, ha]

/-! ### Single quotes -/

/-- A quote closes the quotes, stands by itself after a backslash, and opens them again. -/
def requote (c : Char) : List Char := if c = quote then [quote, backslash, quote, quote] else [c]

def singleQuoted (text : List Char) : List Char := quote :: (text.flatMap requote ++ [quote])

namespace Lexer

theorem scan_requote (text : List Char) (word : Word) (tokens : List Token) :
    scan ⟨.single, some word, tokens⟩ (text.flatMap requote) =
      some ⟨.single, some (word ++ text.map .quoted), tokens⟩ := by
  induction text generalizing word with
  | nil => simp [scan]
  | cons c text ih =>
    rw [List.flatMap_cons, scan_append]
    have hc : scan ⟨.single, some word, tokens⟩ (requote c) =
        some ⟨.single, some (word ++ [.quoted c]), tokens⟩ := by
      by_cases hq : c = quote
      · subst hq
        rfl
      · simp [requote, hq, step, push, scan]
    rw [hc, Option.bind_some, ih, List.map_cons, List.append_assoc, List.singleton_append]

theorem scan_singleQuoted (text : List Char) (word : Option Word) (tokens : List Token) :
    scan ⟨.plain, word, tokens⟩ (singleQuoted text) =
      some ⟨.plain, some (word.getD [] ++ text.map .quoted), tokens⟩ := by
  have ho : step ⟨.plain, word, tokens⟩ quote =
      some ⟨.single, some (word.getD []), tokens⟩ := rfl
  rw [singleQuoted, scan_cons, ho, Option.bind_some, scan_append, scan_requote]
  rfl

end Lexer

/-! ### Words with a blank between them -/

def ReadsAs (text : List Char) (word : Word) : Prop :=
  ∀ tokens, Lexer.scan ⟨.plain, none, tokens⟩ text = some ⟨.plain, some word, tokens⟩

theorem readsAs_singleQuoted (text : List Char) :
    ReadsAs (singleQuoted text) (text.map .quoted) := by
  intro tokens
  exact Lexer.scan_singleQuoted text none tokens

theorem scan_joined {texts : List (List Char)} {words : List Word}
    (h : List.Forall₂ ReadsAs texts words) (tokens : List Token) :
    (Lexer.scan ⟨.plain, none, tokens⟩ ([' '].intercalate texts)).bind Lexer.finish =
      some (tokens ++ words.map .word) := by
  induction h generalizing tokens with
  | nil => simp [Lexer.scan, Lexer.finish, Lexer.delimit]
  | @cons text word texts words hf hr ih =>
    cases hr with
    | nil => simp [hf tokens, Lexer.finish, Lexer.delimit]
    | cons hs hr =>
      rw [List.intercalate_cons_cons, List.append_assoc, Lexer.scan_append, hf tokens,
        Option.bind_some, List.singleton_append, Lexer.scan_cons]
      have hb : Lexer.step ⟨.plain, some word, tokens⟩ ' ' =
          some ⟨.plain, none, tokens ++ [.word word]⟩ := rfl
      rw [hb, Option.bind_some, ih]
      simp

theorem lex_joined {texts : List (List Char)} {words : List Word}
    (h : List.Forall₂ ReadsAs texts words) :
    lex ([' '].intercalate texts) = some (words.map .word) := by
  rw [lex, Lexer.start, scan_joined h]
  rfl

end ProofKit.Shell

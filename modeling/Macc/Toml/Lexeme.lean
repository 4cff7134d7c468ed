import Macc.Failure
import Macc.Text.Hex

/-!
# Blanks, comments, strings and keys

The smallest parts of a TOML document. Each reader takes the characters that are
left and gives back what it read with the characters after it. A document is
either read or refused as a whole, so a refusal carries no position.
-/

namespace Macc.Toml

/-- Something read from the front of some characters, and the characters that are left. -/
structure Taken (β : Type) where
  got : β
  left : List Char

def Taken.map {β γ : Type} (f : β → γ) (t : Taken β) : Taken γ := ⟨f t.got, t.left⟩

def malformed {β : Type} : Except Failure β := .error .malformedDocument

def isGap (c : Char) : Bool := c == ' ' || c == '\t'

def skipGap (cs : List Char) : List Char := cs.dropWhile isGap

/-- Control characters other than the tab stand nowhere in a line. -/
def isControl (c : Char) : Bool :=
  (c.toNat < 32 && c != '\t') || c.toNat == 127

/-- What follows a comment, if one is at the front. The end of the line is left. -/
def skipComment (cs : List Char) : Except Failure (List Char) :=
  match cs with
  | '#' :: rest =>
    if (rest.takeWhile (· != '\n')).any isControl then malformed
    else .ok (rest.dropWhile (· != '\n'))
  | _ => .ok cs

/-- What follows blanks, line ends and comments in front of an array's items; `inComment` says that
a comment has begun. -/
def skipLines (inComment : Bool) : List Char → Except Failure (List Char)
  | [] => .ok []
  | c :: rest =>
    if inComment then
      if c == '\n' then skipLines false rest
      else if isControl c then malformed
      else skipLines true rest
    else if isGap c || c == '\n' then skipLines false rest
    else if c == '#' then skipLines true rest
    else .ok (c :: rest)

/-! ## Strings -/

def literalQuote : Char := Char.ofNat 39

/-- Quotes directly after the end of a string over several lines belong to it, up to two. -/
def closingQuotes (quote : Char) (cs : List Char) : Taken (List Char) :=
  match cs with
  | a :: b :: rest =>
    if a == quote then if b == quote then ⟨[a, b], rest⟩ else ⟨[a], b :: rest⟩
    else ⟨[], cs⟩
  | [a] => if a == quote then ⟨[a], []⟩ else ⟨[], cs⟩
  | [] => ⟨[], []⟩

def literalString (cs : List Char) : Except Failure (Taken String) :=
  let body := cs.takeWhile (· != literalQuote)
  match cs.dropWhile (· != literalQuote) with
  | [] => malformed
  | _ :: rest => if body.any isControl then malformed else .ok ⟨String.ofList body, rest⟩

/-- A literal string over several lines, after its quotes. -/
def literalLines : List Char → Except Failure (Taken (List Char))
  | [] => malformed
  | c :: rest =>
    match c == literalQuote, rest with
    | true, d :: e :: after =>
      if d == literalQuote && e == literalQuote then .ok (closingQuotes literalQuote after)
      else (literalLines rest).map (Taken.map (c :: ·))
    | _, _ =>
      if isControl c && c != '\n' then malformed
      else (literalLines rest).map (Taken.map (c :: ·))

/-- The character that a backslash and a letter stand for. -/
def escaped? : Char → Option Char
  | 'b' => some (Char.ofNat 8)
  | 't' => some '\t'
  | 'n' => some '\n'
  | 'f' => some (Char.ofNat 12)
  | 'r' => some '\r'
  | '"' => some '"'
  | '\\' => some '\\'
  | _ => none

/-- The character with a code point given in hexadecimal digits; surrogates are none. -/
def codePoint? (digits : List Char) : Option Char := do
  let values ← digits.mapM Text.hexValue?
  let n := values.foldl (fun value digit => 16 * value + digit) 0
  if n < 0xd800 || (0xe000 ≤ n && n ≤ 0x10ffff) then some (Char.ofNat n) else none

/-- What a string over several lines is skipping after a backslash: blanks to the end of the line,
or everything blank to the next word. -/
inductive Skipping where
  | nothing
  | toLineEnd
  | toNextWord
  deriving DecidableEq

/-- A string with escapes, after its quotes; `lines` says that it may go over several lines. -/
def basicString (lines : Bool) (skipping : Skipping) :
    List Char → Except Failure (Taken (List Char))
  | [] => malformed
  | c :: rest =>
    let more (d : Char) (r : Except Failure (Taken (List Char))) :=
      r.map (Taken.map (d :: ·))
    if skipping = .toNextWord && (isGap c || c == '\n') then basicString lines .toNextWord rest
    else if skipping = .toLineEnd then
      if isGap c then basicString lines .toLineEnd rest
      else if c == '\n' then basicString lines .toNextWord rest
      else malformed
    else if c == '"' then
      if !lines then .ok ⟨[], rest⟩
      else
        match rest with
        | '"' :: '"' :: after => .ok (closingQuotes '"' after)
        | _ => more '"' (basicString lines .nothing rest)
    else if c == '\\' then
      match rest with
      | [] => malformed
      | 'u' :: h₁ :: h₂ :: h₃ :: h₄ :: after =>
        match codePoint? [h₁, h₂, h₃, h₄] with
        | some d => more d (basicString lines .nothing after)
        | none => malformed
      | 'U' :: h₁ :: h₂ :: h₃ :: h₄ :: h₅ :: h₆ :: h₇ :: h₈ :: after =>
        match codePoint? [h₁, h₂, h₃, h₄, h₅, h₆, h₇, h₈] with
        | some d => more d (basicString lines .nothing after)
        | none => malformed
      | e :: after =>
        if lines && isGap e then basicString lines .toLineEnd after
        else if lines && e == '\n' then basicString lines .toNextWord after
        else
          match escaped? e with
          | some d => more d (basicString lines .nothing after)
          | none => malformed
    else if isControl c && !(lines && c == '\n') then malformed
    else more c (basicString lines .nothing rest)

/-- A line end directly after the quotes that open a string over several lines is not part of it. -/
def dropFirstLineEnd : List Char → List Char
  | '\n' :: rest => rest
  | cs => cs

/-- A string of any of the four forms; nothing when no quote is at the front. -/
def string? (cs : List Char) : Option (Except Failure (Taken String)) :=
  match cs with
  | '"' :: '"' :: '"' :: rest =>
    some ((basicString true .nothing (dropFirstLineEnd rest)).map (Taken.map String.ofList))
  | '"' :: rest =>
    some ((basicString false .nothing rest).map (Taken.map String.ofList))
  | q :: rest =>
    if q == literalQuote then
      match rest with
      | a :: b :: after =>
        if a == literalQuote && b == literalQuote then
          some ((literalLines (dropFirstLineEnd after)).map
            (Taken.map String.ofList))
        else some (literalString rest)
      | _ => some (literalString rest)
    else none
  | [] => none

/-! ## Keys -/

def isBareKeyChar (c : Char) : Bool := c.isAlphanum || c == '-' || c == '_'

/-- One part of a key: bare, or a string on one line. -/
def keyPart (cs : List Char) : Except Failure (Taken String) :=
  match cs with
  | [] => malformed
  | c :: rest =>
    if isBareKeyChar c then
      .ok ⟨String.ofList (cs.takeWhile isBareKeyChar), cs.dropWhile isBareKeyChar⟩
    else if c == '"' then
      (basicString false .nothing rest).map (Taken.map String.ofList)
    else if c == literalQuote then literalString rest
    else malformed

/-- The further parts of a key, each after a point, and the blanks behind them. -/
def keyTail : Nat → List Char → Except Failure (Taken (List String))
  | 0, _ => malformed
  | fuel + 1, cs =>
    match skipGap cs with
    | '.' :: rest => do
      let part ← keyPart (skipGap rest)
      let parts ← keyTail fuel part.left
      return ⟨part.got :: parts.got, parts.left⟩
    | left => .ok ⟨[], left⟩

def key (cs : List Char) : Except Failure (Taken (List String)) := do
  let part ← keyPart cs
  let parts ← keyTail (cs.length + 1) part.left
  return ⟨part.got :: parts.got, parts.left⟩

end Macc.Toml

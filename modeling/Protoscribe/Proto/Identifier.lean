/-!
Names that a proto3 document may carry: an identifier is a letter or underscore
followed by letters, digits and underscores, all of them ASCII; a qualified
name is a dotted sequence of identifiers.
-/

namespace Protoscribe.Proto

def isLetter (c : Char) : Bool :=
  ('a' ≤ c && c ≤ 'z') || ('A' ≤ c && c ≤ 'Z')

def isDigit (c : Char) : Bool := '0' ≤ c && c ≤ '9'

def isIdentifierStart (c : Char) : Bool := isLetter c || c == '_'

def isIdentifierChar (c : Char) : Bool := isLetter c || isDigit c || c == '_'

def isIdentifierChars : List Char → Bool
  | [] => false
  | c :: rest => isIdentifierStart c && rest.all isIdentifierChar

def isIdentifier (name : String) : Bool := isIdentifierChars name.toList

/-- The pieces of a text between its dots; a text without dots is one piece. -/
def splitDots : List Char → List (List Char)
  | [] => [[]]
  | c :: rest =>
      if c = '.' then [] :: splitDots rest
      else
        match splitDots rest with
        | [] => [[c]]
        | piece :: pieces => (c :: piece) :: pieces

/-- Every piece between dots is an identifier, so no piece is empty. -/
def isQualified (name : String) : Bool :=
  (splitDots name.toList).all isIdentifierChars

end Protoscribe.Proto

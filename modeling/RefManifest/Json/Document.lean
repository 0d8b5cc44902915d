import RefManifest.Json.Token

/-!
# RefManifest.Json.Document

A JSON text as a tree in which a fault is a node. The tree ends at the first fault, which
becomes the leaf `cut`; a reader that visits the tree in order therefore meets what it dislikes
about the values before a fault ahead of the fault itself.
-/

namespace RefManifest
namespace Json

/-- Keys of an object are nodes too: a text, or a fault in the place of one. -/
inductive Document where
  | null
  | bool (b : Bool)
  | number (n : Numeral)
  | text (s : List Char)
  | brokenText
  | list (items : List Document)
  | object (fields : List (Document × Document))
  | cut
deriving Repr, Inhabited

namespace Document

/-- A container that waits for the value of its next place. -/
inductive Frame where
  | list (before : List Document)
  | object (before : List (Document × Document)) (key : Document)
deriving Repr

/-- What may come next. The items and fields read so far are kept last first. -/
inductive Expecting where
  | value
  | firstItem
  | afterItem (before : List Document)
  | firstKey
  | nextKey (before : List (Document × Document))
  | colon (before : List (Document × Document)) (key : Document)
  | afterField (before : List (Document × Document))
deriving Repr

inductive Turn where
  | go (next : Expecting) (frames : List Frame)
  | done (d : Document)
  | stop (d : Document)
deriving Repr

def close : List Frame → Document → Document
  | [], d => d
  | .list before :: frames, d => close frames (.list (before.reverse ++ [d]))
  | .object before key :: frames, d => close frames (.object (before.reverse ++ [(key, d)]))

/-- Puts a finished value into its place. -/
def settle (d : Document) : List Frame → Turn
  | [] => .done d
  | .list before :: frames => .go (.afterItem (d :: before)) frames
  | .object before key :: frames => .go (.afterField ((key, d) :: before)) frames

/-- The tree as far as it goes when nothing that is expected comes. -/
def cutAt (frames : List Frame) : Expecting → Document
  | .value => close frames .cut
  | .firstItem => close frames (.list [.cut])
  | .afterItem before => close frames (.list (before.reverse ++ [.cut]))
  | .firstKey => close frames (.object [(.cut, .cut)])
  | .nextKey before => close frames (.object (before.reverse ++ [(.cut, .cut)]))
  | .colon before key => close frames (.object (before.reverse ++ [(key, .cut)]))
  | .afterField before => close frames (.object (before.reverse ++ [(.cut, .cut)]))

def valueTurn (frames : List Frame) : Token → Turn
  | .null => settle .null frames
  | .bool b => settle (.bool b) frames
  | .number n => settle (.number n) frames
  | .text s => settle (.text s) frames
  | .brokenText => settle .brokenText frames
  | .openBracket => .go .firstItem frames
  | .openBrace => .go .firstKey frames
  | .closeBrace | .closeBracket | .comma | .colon | .bad => .stop (close frames .cut)

def keyTurn (frames : List Frame) (before : List (Document × Document)) : Token → Turn
  | .text s => .go (.colon before (.text s)) frames
  | .brokenText => .go (.colon before .brokenText) frames
  | _ => .stop (close frames (.object (before.reverse ++ [(.cut, .cut)])))

def turn (frames : List Frame) : Expecting → Token → Turn
  | .value, t => valueTurn frames t
  | .firstItem, .closeBracket => settle (.list []) frames
  | .firstItem, t => valueTurn (.list [] :: frames) t
  | .afterItem before, .comma => .go .value (.list before :: frames)
  | .afterItem before, .closeBracket => settle (.list before.reverse) frames
  | .firstKey, .closeBrace => settle (.object []) frames
  | .firstKey, t => keyTurn frames [] t
  | .nextKey before, t => keyTurn frames before t
  | .colon before key, .colon => .go .value (.object before key :: frames)
  | .afterField before, .comma => .go (.nextKey before) frames
  | .afterField before, .closeBrace => settle (.object before.reverse) frames
  | expecting, _ => .stop (cutAt frames expecting)

/-- Reads one value and leaves the tokens after it. -/
def readFrom (frames : List Frame) (expecting : Expecting) : List Token → Document × List Token
  | [] => (cutAt frames expecting, [])
  | t :: rest =>
    match turn frames expecting t with
    | .go next frames => readFrom frames next rest
    | .done d => (d, rest)
    | .stop d => (d, rest)

def ofTokens (ts : List Token) : Document × List Token := readFrom [] .value ts

def isKey : Document → Bool
  | .text _ => true
  | .brokenText => true
  | _ => false

mutual

/-- Whether no fault cuts the tree off. -/
def isWhole : Document → Bool
  | .list items => areWhole items
  | .object fields => fieldsAreWhole fields
  | .cut => false
  | _ => true

def areWhole : List Document → Bool
  | [] => true
  | d :: rest => d.isWhole && areWhole rest

def fieldsAreWhole : List (Document × Document) → Bool
  | [] => true
  | (key, d) :: rest => key.isKey && d.isWhole && fieldsAreWhole rest

end

end Document
end Json
end RefManifest

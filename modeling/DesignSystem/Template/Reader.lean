import DesignSystem.Template.Tag

/-!
# Reading templates

A text is cut into tags and the text between them, and the blocks that the tags open and close give
the parts of the template. A tag for a block, a branch or a comment that stands alone on its line
takes the line with it.
-/

set_option autoImplicit false

namespace DesignSystem.Template

/-! ## Text and tags -/

/-- The text up to the next tag, and what follows the braces that open the tag, if there is one.
`slashes` counts the backslashes just before. One backslash makes the braces plain text; of several
the first is dropped, and the braces still open a tag. -/
def spanText (slashes : Nat) : List Char → List Char × Option (List Char)
  | [] => (List.replicate slashes '\\', none)
  | '\\' :: cs => spanText (slashes + 1) cs
  | '\x7b' :: '\x7b' :: cs =>
    match slashes with
    | 0 => ([], some cs)
    | 1 =>
      match cs with
      | '\x7b' :: '\x7b' :: cs =>
        let r := spanText 0 cs
        ('\x7b' :: '\x7b' :: '\x7b' :: '\x7b' :: r.1, r.2)
      | cs =>
        let r := spanText 0 cs
        ('\x7b' :: '\x7b' :: r.1, r.2)
    | slashes + 2 => (List.replicate (slashes + 1) '\\', some cs)
  | c :: cs =>
    let r := spanText 0 cs
    (List.replicate slashes '\\' ++ c :: r.1, r.2)

/-- A template cut up: each tag with the text before it, and the text after the last tag. -/
structure Pieces where
  tagged : List (String × TrimmedTag)
  last : String

/-- The pieces of a text. -/
def pieces? (cs : List Char) : Option Pieces :=
  match spanText 0 cs with
  | (text, none) => some ⟨[], .ofList text⟩
  | (text, some opened) =>
    match spanTag? opened with
    | none => none
    | some (tag, rest) =>
      -- the braces that open a tag are not part of the rest
      if rest.length < cs.length then
        (pieces? rest).map fun p => ⟨(.ofList text, tag) :: p.tagged, p.last⟩
      else none
  termination_by cs.length

/-! ## White space around tags -/

/-- White space inside a line. -/
def isLineSpace (c : Char) : Bool := c = ' ' || c = '\t'

/-- The end of a line. -/
def isLineEnd (c : Char) : Bool := c = '\n' || c = '\r'

/-- Whether a text before a tag leaves the line of the tag blank; `first` says that nothing stands
before the text. -/
def leavesLineBlank (first : Bool) (before : String) : Bool :=
  match (Text.dropTrailing isLineSpace before.toList).getLast? with
  | some c => isLineEnd c
  | none => first

/-- Whether a text after a tag ends the line of the tag; `last` says that nothing stands after the
text. -/
def endsLine (last : Bool) (after : String) : Bool :=
  match after.toList.dropWhile isLineSpace with
  | c :: _ => isLineEnd c
  | [] => last && after.isEmpty

/-- Drops the rest of a line with its end. -/
def dropLineEnd (s : String) : String :=
  match s.toList.dropWhile isLineSpace with
  | '\r' :: '\n' :: rest => .ofList rest
  | '\n' :: rest => .ofList rest
  | rest => .ofList rest

/-- Drops white space on the left. -/
def trimLeft (s : String) : String := .ofList (s.toList.dropWhile Text.isBlankChar)

/-- Whether a tag takes its line with it if it stands there alone. -/
def Tag.canStandAlone : Tag → Bool
  | .element _ => false
  | _ => true

/-! ## Blocks -/

/-- A block that is being read, with what has been read of it, last first. -/
structure OpenBlock where
  name : String
  /-- The parts before the block. -/
  before : List Element
  /-- The calls that have been tried so far with their bodies. -/
  tried : List (Call × List Element)
  /-- The call whose body is being read; none after all calls have been tried. -/
  current : Option Call

/-- What has been read of a template. -/
structure Progress where
  blocks : List OpenBlock := []
  /-- The parts of the innermost body, last first. -/
  parts : List Element := []
  /-- White space is dropped at the start of the next text. -/
  trims : Bool := false
  /-- The next text starts with the rest of a line that is dropped. -/
  dropsLine : Bool := false

namespace Progress

/-- Changes the last part, if it is a text. -/
def mapLastText (f : String → String) (p : Progress) : Progress :=
  match p.parts with
  | .text s :: before => { p with parts := .text (f s) :: before }
  | _ => p

/-- Adds a part. -/
def push (e : Element) (p : Progress) : Progress := { p with parts := e :: p.parts }

/-- Adds a text. White space alone vanishes where white space is dropped. -/
def pushText (s : String) (p : Progress) : Progress :=
  if s.isEmpty then p
  else if p.trims then
    if s.toList.all isSpace then p
    else { p.push (.text (trimLeft s)) with dropsLine := false }
  else { p.push (.text (if p.dropsLine then dropLineEnd s else s)) with dropsLine := false }

/-- Ends the body of the current call. -/
def endBody (b : OpenBlock) (p : Progress) (next : Option Call) : Option OpenBlock :=
  b.current.map fun c =>
    { b with tried := (c, p.parts.reverse) :: b.tried, current := next }

/-- The parts that stand for calls that are tried in turn, the last one first. -/
def chain (tried : List (Call × List Element)) (otherwise : List Element) : List Element :=
  tried.foldl (fun otherwise t => [.block t.1 t.2 otherwise]) otherwise

/-- Closes a block. -/
def closeBlock (b : OpenBlock) (p : Progress) : List Element :=
  match p.endBody b none with
  | some b => chain b.tried []
  | none => chain b.tried p.parts.reverse

/-- Adds a tag. -/
def pushTag? (t : Tag) (p : Progress) : Option Progress :=
  match t, p.blocks with
  | .comment, _ => some (p.push .comment)
  | .element e, _ => some (p.push e)
  | .openBlock c, blocks =>
    some { p with blocks := ⟨c.helper, p.parts, [], some c⟩ :: blocks, parts := [] }
  | .otherwise, b :: blocks =>
    (p.endBody b none).map fun b => { p with blocks := b :: blocks, parts := [] }
  | .otherwiseCall c, b :: blocks =>
    (p.endBody b (some c)).map fun b => { p with blocks := b :: blocks, parts := [] }
  | .closeBlock name, b :: blocks =>
    if b.name = name then
      some { p with blocks := blocks, parts := p.closeBlock b ++ b.before }
    else none
  | _, [] => none

/-- Handles the white space around a tag. A comment leaves white space after it alone. -/
def trimAround (t : TrimmedTag) (alone : Bool) (p : Progress) : Progress :=
  let p := if t.trimsBefore then p.mapLastText Text.trimRight else p
  let p := match t.tag with
    | .comment => p
    | _ => { p with trims := t.trimsAfter }
  if t.tag.canStandAlone then
    let p := if alone then
      p.mapLastText fun s => .ofList (Text.dropTrailing isLineSpace s.toList) else p
    { p with dropsLine := alone }
  else p

/-- Reads on; `first` says that nothing has been read. -/
def readOn (last : String) (first : Bool) (p : Progress) :
    List (String × TrimmedTag) → Option Progress
  | [] => some (p.pushText last)
  | (text, tag) :: rest =>
    let after := match rest with
      | [] => last
      | next :: _ => next.1
    let alone := leavesLineBlank first text && endsLine rest.isEmpty after
    match ((p.pushText text).trimAround tag alone).pushTag? tag.tag with
    | some p => readOn last false p rest
    | none => none

end Progress

/-- Reads a template. -/
def ofText? (s : String) : Option Template := do
  let pieces ← pieces? s.toList
  let p ← ({} : Progress).readOn pieces.last true pieces.tagged
  if p.blocks.isEmpty then some p.parts.reverse else none

end DesignSystem.Template

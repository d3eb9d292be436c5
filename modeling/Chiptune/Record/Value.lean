import Chiptune.Record.Extension
import Chiptune.Record.Numeral

/-!
Values of any shape, which are read over when a field is unknown.

A value may hold further values only to a depth.  Every bracket, every value inside it and every
value inside an option uses up one unit of the depth that is left.
-/
namespace Chiptune.Record

/-- Items up to a closing bracket, which stays, given whether one may follow at once.  There is a
comma between items and there may be one after the last. -/
def itemsWithin {α : Type} (close : Char) (item : Reader α) : Nat → Bool → Reader (List α)
  | 0, _ => Reader.fail
  | fuel + 1, separated => do
    blank
    if (← Reader.peek) = some close then return []
    if separated then
      let value ← item
      let separated ← comma
      return value :: (← itemsWithin close item fuel separated)
    else Reader.fail

/-- Items up to a closing bracket, which stays.  Every item takes a character at least, so the length
of the text bounds their number. -/
def itemsBefore {α : Type} (close : Char) (item : Reader α) : Reader (List α) := do
  let text ← Reader.rest
  itemsWithin close item (text.length + 1) true

def items {α : Type} (close : Char) (item : Reader α) : Reader (List α) := do
  let values ← itemsBefore close item
  Reader.expect (String.singleton close)
  return values

/-- A value and the name before it, with a colon between. -/
def entry {α β : Type} (key : Reader α) (value : α → Reader β) : Reader β := do
  let key ← key
  blank
  Reader.expect ":"
  blank
  value key

/-- Readers of values with less and less depth left: the first for a value inside an option, the
second for a value inside brackets.  Its length is the depth that is left. -/
abbrev Inner := List (Reader Unit)

/-- Goes inside brackets, if depth is left, with a reader of the values there. -/
def Inner.enter (inner : Inner) (contents : Reader Unit → Reader Unit) : Reader Unit :=
  match inner with
  | [] => Reader.fail
  | _ :: deeper => contents (deeper.headD Reader.fail)

def skipFields (element : Reader Unit) : Reader Unit := do
  let _ ← itemsBefore ')' (entry identifier fun _ => element)

def skipValues (close : Char) (element : Reader Unit) : Reader Unit := do
  let _ ← itemsBefore close element

/-- What stands in the brackets of an option. -/
inductive Contents where
  | nothing
  | fields
  /-- More than one value. -/
  | several
  /-- One value. -/
  | single
deriving DecidableEq, Repr

/-- What a comma after the first value makes of the contents. -/
def contentsAfterComma (text : List Char) : Option Contents :=
  (skipBlanks text).map fun rest => if rest.head? = some ')' then .single else .several

/-- What is left after a character, a text and a text of bytes, as far as they stand at the front.  A
broken text is refused, since what follows it cannot be told from its contents. -/
def skipTexts (text : List Char) : Option (List Char) := do
  let text := ((quotedCharacter text).map Prod.snd).getD text
  let text ← (ending false text).restOr text
  (endingOfBytes text).restOr text

/-- Looks for a comma outside a number of further brackets and outside of texts, up to the bracket
that closes the contents. -/
def contentsFrom : Nat → Nat → List Char → Option Contents
  | 0, _, _ => none
  | fuel + 1, depth, text => do
    match ← skipBlanks (← skipTexts (← skipBlanks text)) with
    | [] => none
    | c :: rest =>
      if ['(', '[', '\x7b'].contains c then contentsFrom fuel (depth + 1) rest
      else if [')', ']', '\x7d'].contains c then
        match depth with
        | 0 => some .single
        | depth + 1 => contentsFrom fuel depth rest
      else if c = ',' ∧ depth = 0 then contentsAfterComma rest
      else contentsFrom fuel depth rest

/-- What a text in the brackets of an option holds. -/
def contents? (text : List Char) : Option Contents := do
  if text.head? = some ')' then some .nothing
  else
    match afterName? text with
    | none => contentsFrom (text.length + 1) 0 text
    | some rest =>
      match ← skipBlanks rest with
      | ':' :: _ => some .fields
      | ',' :: rest => contentsAfterComma rest
      | ')' :: _ => some .single
      | rest => contentsFrom (rest.length + 1) 0 rest

/-- What stands in the brackets of an option, where a record may go without brackets of its own. -/
def skipUnwrapped (payload : Reader Unit) (deeper : Inner) : Reader Unit := do
  match contents? (← Reader.rest) with
  | some .nothing => return ()
  | some .fields => deeper.enter skipFields
  | some .several => deeper.enter (skipValues ')')
  | some .single => payload
  | none => Reader.fail

def skipOption (extensions : List Extension) (inner : Inner) : Reader Unit :=
  match inner with
  | [] => Reader.fail
  | payload :: deeper => do
    blank
    if ← Reader.accept "(" then
      blank
      if extensions.contains .unwrapVariantNewtypes then skipUnwrapped payload deeper else payload
      let _ ← comma
      Reader.expect ")"
    else if extensions.contains .implicitSome then payload
    else Reader.fail

/-- Whether the first thing after an opening bracket is a name with a colon. -/
def beginsNamed (text : List Char) : Bool :=
  match (skipBlanks text).bind afterName? |>.bind skipBlanks with
  | some (':' :: _) => true
  | _ => false

def skipGroup (inner : Inner) : Reader Unit := inner.enter fun element => do
  Reader.expect "("
  if beginsNamed (← Reader.rest) then skipFields element else skipValues ')' element
  Reader.expect ")"

def skipList (inner : Inner) : Reader Unit := inner.enter fun element => do
  Reader.expect "["
  skipValues ']' element
  Reader.expect "]"

def skipMap (inner : Inner) : Reader Unit := inner.enter fun element => do
  Reader.expect "\x7b"
  skipValues '\x7d' (entry element fun _ => element)
  Reader.expect "\x7d"

/-- A value that is no name and no number by name. -/
def skipUnnamed (inner : Inner) : Reader Unit := do
  match ← Reader.peek with
  | some '(' => skipGroup inner
  | some '[' => skipList inner
  | some '\x7b' => skipMap inner
  | some '"' | some 'r' => quoted
  | some '\'' => quotedCharacter
  | some 'b' => if beginsAny ["b'"] (← Reader.rest) then skipNumbers else quotedBytes
  | some c =>
    if c.isDigit || c == '+' || c == '-' || c == '.' then skipNumbers else Reader.fail
  | none => Reader.fail

def plainWords : List (String × Unit) := [("true", ()), ("false", ()), ("None", ())]

/-- A value, given how to read the values that it may hold. -/
def skipWithin (extensions : List Extension) (inner : Inner) : Reader Unit := do
  if (← oneOf plainWords).isSome then return ()
  if ← word "Some" then return (← skipOption extensions inner)
  if ← Reader.accept "()" then return ()
  if (← namedNumber unsignedNames .any).isSome then return (← skipRangeEnd)
  match ← Reader.tryRead identifier with
  | some _ =>
    blank
    if (← Reader.peek) = some '(' then skipGroup inner
  | none => skipUnnamed inner

/-- Readers of values with less and less depth left, from a depth on. -/
def readers (extensions : List Extension) : Nat → Inner
  | 0 => []
  | depth + 1 =>
    let inner := readers extensions depth
    skipWithin extensions inner :: inner

/-- Skips a value with a depth left. -/
def skipValue (extensions : List Extension) (depth : Nat) : Reader Unit :=
  skipWithin extensions (readers extensions depth)

end Chiptune.Record

import Chiptune.Record.Reader

/-!
What may stand between the parts of a record: blanks, comments to the end of a line, and block
comments, which nest.
-/
namespace Chiptune.Record

def blanks : List Char :=
  [' ', '\t', '\n', '\r', '\x0b', '\x0c', '\u0085', '\u200e', '\u200f', '\u2028', '\u2029']

def isBlank (c : Char) : Bool := blanks.contains c

/-- Skips a block comment down to its end, inside a number of further ones.  Fails at the end of the
text. -/
def skipBlock (depth : Nat) : List Char → Option (List Char)
  | [] => none
  | '/' :: '*' :: rest => skipBlock (depth + 1) rest
  | '*' :: '/' :: rest =>
    match depth with
    | 0 => some rest
    | depth + 1 => skipBlock depth rest
  | _ :: rest => skipBlock depth rest

theorem length_skipBlock_lt {depth : Nat} {text rest : List Char}
    (h : skipBlock depth text = some rest) : rest.length < text.length := by
  induction depth, text using skipBlock.induct with
  | case1 => simp [skipBlock] at h
  | case2 depth text ih =>
    rw [skipBlock] at h
    have := ih h
    simp only [List.length_cons]
    omega
  | case3 text =>
    simp only [skipBlock, Option.some.injEq] at h
    simp only [h, List.length_cons]
    omega
  | case4 text depth ih =>
    simp only [skipBlock] at h
    have := ih h
    simp only [List.length_cons]
    omega
  | case5 depth c text h₁ h₂ ih =>
    rw [skipBlock] at h
    · have := ih h
      simp only [List.length_cons]
      omega
    · exact h₁
    · exact h₂

set_option linter.unusedVariables false in
/-- Skips blanks and comments.  Fails at a block comment without end, and at a stroke that begins no
comment. -/
def skipBlanks (text : List Char) : Option (List Char) :=
  match h : text.dropWhile isBlank with
  | '/' :: '/' :: rest => skipBlanks (rest.dropWhile (· != '\n'))
  | '/' :: '*' :: rest =>
    match hb : skipBlock 0 rest with
    | some rest => skipBlanks rest
    | none => none
  | '/' :: _ => none
  | rest => some rest
termination_by text.length
decreasing_by
  · have hle := (List.dropWhile_sublist isBlank (l := text)).length_le
    have hrest := (List.dropWhile_sublist (· != '\n') (l := rest)).length_le
    rw [h] at hle
    simp only [List.length_cons] at hle
    omega
  · have hle := (List.dropWhile_sublist isBlank (l := text)).length_le
    have hlt := length_skipBlock_lt hb
    rw [h] at hle
    simp only [List.length_cons] at hle
    omega

def blank : Reader Unit := fun text => (skipBlanks text).map fun rest => ((), rest)

/-- Skips blanks, then takes a comma with the blanks after it, if there is one. -/
def comma : Reader Bool := do
  blank
  if ← Reader.accept "," then
    blank
    return true
  return false

end Chiptune.Record

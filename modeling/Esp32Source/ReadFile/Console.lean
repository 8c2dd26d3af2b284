import Esp32Source.Machine.Window
import Esp32Source.Memory.Decimal
import Esp32Source.Memory.Stdio

/-!
# Printing a file of values

The program reads its file line by line, decodes two characters of each line
to a token, and prints twenty tokens in a row.  A token is highlighted where
it differs from the one above it, which is kept in one row of `array20` for
each column.

The loops are nested: the inner one fills a row and ends early at the end of
the file, and then it also ends the outer one.
-/

namespace Esp32Source.ReadFile

open Memory Machine

/-! ## What the program does to the console -/

/-- A call that changes the console. -/
inductive Call where
  /-- `SetConsoleTextAttribute` -/
  | setAttribute (wAttributes : Nat)
  | print (text : List UInt8)
  deriving DecidableEq, Repr

/-- Where a run leaves the defined behaviour of the language. -/
inductive Stop where
  | memory (fault : Fault)
  /-- `numberOfLine`, an `int`, was raised above its range. -/
  | overflow
  deriving DecidableEq, Repr

def access {α : Type} (accessed : Except Fault α) : Except Stop α :=
  accessed.mapError Stop.memory

/-- The variables of `main`, and the calls it has made. -/
structure Screen where
  line : Buffer 20
  array20 : Fin 20 → Buffer 20
  numberOfLine : Nat
  calls : List Call

/-! ## One line -/

/-- The conversion of one character. -/
def convert (character : UInt8) : UInt8 :=
  if character = 69 ∨ character = 70 then 49
  else if character = 48 ∨ character = 56 then 48
  else character

/-- The character at `j` is converted in place. -/
def convertAt (line : Buffer 20) (j : Nat) :
    Except Fault (Buffer 20) := do
  let character ← line.load j 1
  line.store j (character.map convert)

/-- The third and fourth character are moved to the front, terminated, and
converted. -/
def decodeLine (line : Buffer 20) : Except Fault (Buffer 20) := do
  let third ← line.load 2 1
  let line ← line.store 0 third
  let fourth ← line.load 3 1
  let line ← line.store 1 fourth
  let line ← line.store 2 [0]
  let line ← convertAt line 0
  convertAt line 1

/-- `numberOfLine++` -/
def increment (numberOfLine : Nat) : Except Stop Nat :=
  if numberOfLine + 1 < 2147483648 then .ok (numberOfLine + 1)
  else .error .overflow

/-- The calls that print a token, with or without highlight. -/
def printToken (isSame : Bool) (token : List UInt8) : List Call :=
  if isSame then
    [.print (token ++ ascii "   ")]
  else
    [.setAttribute 6, .print (token ++ ascii "   "), .setAttribute 7]

/-- A pass of the inner loop whose `fgets` has read a record. -/
def showLine (screen : Screen) (ii : Fin 20) (record : List UInt8) :
    Except Stop Screen := do
  let line ← access (screen.line.store 0 (record ++ [0]))
  let line ← access (decodeLine line)
  let token ← access (readString line 0)
  let above ← access (readString (screen.array20 ii) 0)
  let row ← access
    ((screen.array20 ii).store 0 (strncpyBytes token 2))
  let numberOfLine ← increment screen.numberOfLine
  return {
    line, numberOfLine
    array20 := Function.update screen.array20 ii row
    calls := screen.calls ++ printToken (token = above) token }

/-! ## The loops -/

/-- The value of `ii` in front of the last `columns` values. -/
def columnAt (columns : Nat) : Fin 20 :=
  ⟨19 - columns, Nat.lt_succ_of_le (Nat.sub_le 19 columns)⟩

/-- The passes of the inner loop for the last `columns` values of `ii`, with
the records that are left and the new `breakWhile`. -/
def showRow : Nat → Screen → List (List UInt8) →
    Except Stop (Screen × List (List UInt8) × Bool)
  | 0, screen, records => .ok (screen, records, true)
  -- fgets returns NULL: breakWhile is cleared and the row is left
  | _ + 1, screen, [] => .ok (screen, [], false)
  | columns + 1, screen, record :: records => do
      let screen ← showLine screen (columnAt columns) record
      showRow columns screen records

/-- The outer loop, for at most the given number of passes. -/
def showRows : Nat → Screen → List (List UInt8) →
    Except Stop (Option Screen)
  | 0, _, _ => .ok none
  | passes + 1, screen, records => do
      let (screen, records, breakWhile) ← showRow 20 screen records
      let screen :=
        { screen with calls := screen.calls ++ [.print (ascii "\n")] }
      if breakWhile then showRows passes screen records
      else return some screen

/-- The calls of `main`, if its outer loop ends within the given number of
passes.  The count of its `fgets` is 20. -/
def main (passes : Nat) (file : Option (List UInt8)) (line : Buffer 20) :
    Except Stop (Option (List Call)) :=
  match file with
  | none => .error (.memory .nullPointer)
  | some content => do
      let ended ← showRows passes
        ⟨line, fun _ => Buffer.zero 20, 0, []⟩ (records 19 content)
      return ended.map fun screen =>
        screen.calls ++
          [.print (ascii "total line: " ++ decimal screen.numberOfLine ++
            ascii "\n")]

/-! ## What it is for -/

/-- A line of 4 to 18 characters. -/
structure DataLine where
  text : List UInt8
  free : NulFree text
  oneLine : newline ∉ text
  atLeast : 4 ≤ text.length
  atMost : text.length ≤ 18

def content (lines : List DataLine) : List UInt8 :=
  (lines.map fun line => line.text ++ [newline]).flatten

/-- The third and fourth character of a line, converted. -/
def token (line : DataLine) : List UInt8 :=
  ((line.text.drop 2).take 2).map convert

/-- The `k`-th token is printed, highlighted exactly where there is no token
or another one 20 places before it. -/
def tokenCalls (tokens : List (List UInt8)) (k : Nat) : List Call :=
  match tokens[k]? with
  | none => []
  | some token =>
      if k < 20 ∨ tokens[k - 20]? ≠ some token then
        [.setAttribute 6, .print (token ++ ascii "   "), .setAttribute 7]
      else
        [.print (token ++ ascii "   ")]

/-- A row ends behind every twentieth token. -/
def rowEnd (k : Nat) : List Call :=
  if (k + 1) % 20 = 0 then [.print (ascii "\n")] else []

/-- All tokens in their rows. -/
def tokenRows (tokens : List (List UInt8)) : List Call :=
  (List.range tokens.length).flatMap fun k => tokenCalls tokens k ++ rowEnd k

/-- What the program is to show for the lines of a file. -/
def shown (lines : List DataLine) : List Call :=
  tokenRows (lines.map token) ++
    [.print (ascii "\n"),
      .print (ascii "total line: " ++ decimal lines.length ++ ascii "\n")]

end Esp32Source.ReadFile

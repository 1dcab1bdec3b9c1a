import InputLeap.Lib.Lines
import InputLeap.Lib.Text

/-! The lines that the core logs, as the window takes them from its output and takes them apart. -/

namespace InputLeap.Gui

open InputLeap.Lib

abbrev Chars := List Char

structure CoreLogLine where
  timestamp : Chars
  level : Chars
  message : Chars
  deriving DecidableEq

namespace CoreEventParser

/-- `QChar::isSpace`. -/
def isSpace (c : Char) : Bool :=
  Text.isSpace c || c.toNat ∈ [0x85, 0xA0, 0x1680, 0x2028, 0x2029, 0x202F, 0x205F, 0x3000] ||
    decide (0x2000 ≤ c.toNat ∧ c.toNat ≤ 0x200A)

def trimmed (text : Chars) : Chars := (text.dropWhile isSpace).rdropWhile isSpace

def levelNames : List Chars :=
  ["ERROR", "WARNING", "NOTE", "INFO", "DEBUG", "DEBUG1", "DEBUG2"].map String.toList

def levelIndex (level : Chars) : Option ℕ :=
  if level = "FATAL".toList then some 0 else levelNames.findIdx? fun name => decide (name = level.map Char.toUpper)

def inTimestamp (c : Char) : Bool := c.isDigit || decide (c = 'T' ∨ c = ':' ∨ c = '-')

def inLevel (c : Char) : Bool := c.isUpper || c.isDigit

/-- A level and what is behind its colon, both as the expressions match them. No class has a character that the part after
it may begin with, so a match takes as many as there are. -/
def levelMatch (text : Chars) : Option (Chars × Chars) :=
  let level := text.takeWhile inLevel
  match text.dropWhile inLevel with
  | ':' :: rest => if level = [] then none else some (level, rest)
  | _ => none

/-- The expression `^\[([0-9T:\-]+)\]\s+([A-Z0-9]+):\s*(.*)$`. -/
def stampedMatch (text : Chars) : Option CoreLogLine :=
  match text with
  | '[' :: rest =>
    let timestamp := rest.takeWhile inTimestamp
    match rest.dropWhile inTimestamp with
    | ']' :: rest =>
      if timestamp = [] ∨ (rest.head?.any Text.isSpace) = false then none
      else (levelMatch (rest.dropWhile Text.isSpace)).map fun found =>
        ⟨timestamp, found.1, trimmed (found.2.dropWhile Text.isSpace)⟩
    | _ => none
  | _ => none

/-- The expression `^([A-Z0-9]+):\s+(.*)$`, with a level that has a name. -/
def bareMatch (text : Chars) : Option CoreLogLine :=
  (levelMatch text).bind fun found =>
    if (found.2.head?.any Text.isSpace) = false ∨ levelIndex found.1 = none then none
    else some ⟨[], found.1, trimmed (found.2.dropWhile Text.isSpace)⟩

def splitLine (rawLine : Chars) : CoreLogLine :=
  let text := trimmed (rawLine.takeWhile fun c => decide (c ≠ '\n'))
  match stampedMatch text with
  | some line => line
  | none => (bareMatch text).getD ⟨[], [], text⟩

lemma splitLine_append {line : Chars} (hline : '\n' ∉ line) (rest : Chars) : splitLine (line ++ '\n' :: rest) = splitLine line := by
  have hall : ∀ c ∈ line, decide (c ≠ '\n') = true := fun c hc => decide_eq_true fun heq => hline (heq ▸ hc)
  have hcut : (line ++ '\n' :: rest).takeWhile (fun c => decide (c ≠ '\n')) = line.takeWhile fun c => decide (c ≠ '\n') := by
    rw [List.takeWhile_append_of_pos hall, List.takeWhile_cons_of_neg (by decide), List.append_nil]
    exact (List.takeWhile_eq_self_iff.mpr hall).symm
  rw [splitLine, splitLine, hcut]

lemma trimmed_append_return (text : Chars) : trimmed (text ++ ['\r']) = trimmed text := by
  rw [trimmed, trimmed, List.dropWhile_append]
  split_ifs with hempty
  · rw [List.isEmpty_iff.mp hempty]
    rfl
  · exact List.rdropWhile_concat_pos _ _ _ (by decide)

lemma splitLine_append_return {line : Chars} (hline : '\n' ∉ line) : splitLine (line ++ ['\r']) = splitLine line := by
  have hall : ∀ c ∈ line, decide (c ≠ '\n') = true := fun c hc => decide_eq_true fun heq => hline (heq ▸ hc)
  have hcut : (line ++ ['\r']).takeWhile (fun c => decide (c ≠ '\n')) = line ++ ['\r'] := by
    rw [List.takeWhile_append_of_pos hall]
    rfl
  rw [splitLine, splitLine, hcut, trimmed_append_return, List.takeWhile_eq_self_iff.mpr hall]

end CoreEventParser

namespace CoreProcess

def newline : UInt8 := 10

def carriageReturn : UInt8 := 13

/-- As `QByteArray::trimmed` has it. -/
def isSpace (b : UInt8) : Bool := decide (b = 32 ∨ 9 ≤ b.toNat ∧ b.toNat ≤ 13)

variable (fromUtf8 : List UInt8 → Chars)

structure Output where
  pending : List UInt8
  received : List Chars

def takeLine (received : List Chars) (line : List UInt8) : List Chars :=
  let line := if line.getLast? = some carriageReturn then line.dropLast else line
  if line.all isSpace then received else received ++ [fromUtf8 line]

def readLines (o : Output) (chunk : List UInt8) : Output :=
  let pending := o.pending ++ chunk
  let drained := Lines.drain newline (fun _ => true) (takeLine fromUtf8) pending.length pending o.received
  ⟨drained.1, drained.2⟩

end CoreProcess

end InputLeap.Gui

import TimeCapsule.Lib.Bytes
import Mathlib.Data.List.DropRight

/-!
# Python text

`str.strip`, `repr`, `str.encode("ascii", errors="ignore")` and `int(text, 0)`.  Beyond ASCII,
`repr` and `int` consult the Unicode database, which is a parameter.
-/

namespace TimeCapsule.Lib

/-- The parts of the Unicode database used for code points beyond ASCII. -/
structure UnicodeData where
  printable : Char → Bool
  decimal : Char → Option Nat

/-- `str.isspace` -/
def isPySpace (c : Char) : Bool :=
  let n := c.toNat
  (9 ≤ n && n ≤ 13) || (28 ≤ n && n ≤ 32) || n == 0x85 || n == 0xA0 || n == 0x1680 ||
    (0x2000 ≤ n && n ≤ 0x200A) || n == 0x2028 || n == 0x2029 || n == 0x202F || n == 0x205F ||
    n == 0x3000

/-- `text.strip()` -/
def strip (s : String) : String :=
  String.ofList ((s.toList.dropWhile isPySpace).reverse.dropWhile isPySpace).reverse

theorem strip_strip (s : String) : strip (strip s) = strip s := by
  have hinner : ∀ l : List Char, ((l.dropWhile isPySpace).rdropWhile isPySpace).dropWhile isPySpace =
      (l.dropWhile isPySpace).rdropWhile isPySpace := by
    intro l
    cases hl : l.dropWhile isPySpace with
    | nil => rfl
    | cons c cs =>
      have hc : ¬ isPySpace c := by
        have := List.head_dropWhile_not isPySpace (l := l) (by rw [hl]; exact List.cons_ne_nil c cs)
        simpa [hl] using this
      cases hr : (c :: cs).rdropWhile isPySpace with
      | nil => rfl
      | cons d ds =>
        obtain ⟨rest, hrest⟩ := List.rdropWhile_prefix isPySpace (c :: cs)
        rw [hr, List.cons_append] at hrest
        rw [List.dropWhile_cons_of_neg ((List.cons.inj hrest).1 ▸ hc)]
  show String.ofList (((String.ofList ((s.toList.dropWhile isPySpace).rdropWhile
    isPySpace)).toList.dropWhile isPySpace).rdropWhile isPySpace) = _
  rw [String.toList_ofList, hinner, List.rdropWhile_idempotent]
  rfl

/-- `text.encode("ascii", errors="ignore")` -/
def encodeAsciiIgnore (s : String) : Bytes :=
  (s.toList.filter fun c => c.toNat < 128).map fun c => UInt8.ofNat c.toNat

/-! ## repr -/

def hexPadded (width n : Nat) : List Char :=
  let digits := Nat.toDigits 16 n
  List.replicate (width - digits.length) '0' ++ digits

def reprChar (u : UnicodeData) (quote c : Char) : List Char :=
  let n := c.toNat
  if c = quote ∨ c = '\\' then ['\\', c]
  else if c = '\t' then ['\\', 't']
  else if c = '\n' then ['\\', 'n']
  else if c = '\r' then ['\\', 'r']
  else if n < 32 ∨ n = 127 then '\\' :: 'x' :: hexPadded 2 n
  else if n < 127 ∨ u.printable c then [c]
  else if n < 0x100 then '\\' :: 'x' :: hexPadded 2 n
  else if n < 0x10000 then '\\' :: 'u' :: hexPadded 4 n
  else '\\' :: 'U' :: hexPadded 8 n

/-- `repr(text)`: single quotes, unless the text holds some and no double quote. -/
def reprStr (u : UnicodeData) (s : String) : String :=
  let quote := if s.toList.contains '\'' && !s.toList.contains '"' then '"' else '\''
  String.ofList (quote :: s.toList.flatMap (reprChar u quote) ++ [quote])

/-! ## int(text, 0) -/

def digitOf (u : UnicodeData) (c : Char) : Option Nat :=
  if '0' ≤ c ∧ c ≤ '9' then some (c.toNat - '0'.toNat)
  else if 'a' ≤ c ∧ c ≤ 'z' then some (c.toNat - 'a'.toNat + 10)
  else if 'A' ≤ c ∧ c ≤ 'Z' then some (c.toNat - 'A'.toNat + 10)
  else if c.toNat < 128 then none
  else u.decimal c

/-- Digits of the base, single underscores between them. -/
def digitsFrom (u : UnicodeData) (base : Nat) : (acc : Nat) → List Char → Option Nat
  | acc, [] => some acc
  | acc, '_' :: c :: cs =>
      match digitOf u c with
      | some d => if d < base then digitsFrom u base (acc * base + d) cs else none
      | none => none
  | acc, c :: cs =>
      match digitOf u c with
      | some d => if d < base then digitsFrom u base (acc * base + d) cs else none
      | none => none

def digitsOf (u : UnicodeData) (base : Nat) : List Char → Option Nat
  | [] => none
  | '_' :: _ => none
  | cs => digitsFrom u base 0 cs

/-- A literal without a sign: a base prefix, which an underscore may follow, or decimal digits; a
decimal literal that starts with a zero is zero. -/
def magnitudeOf (u : UnicodeData) : List Char → Option Nat
  | [] => none
  | c :: cs =>
      if digitOf u c = some 0 then
        match cs with
        | [] => some 0
        | p :: ds =>
            let rest := if ds.head? = some '_' then ds.tail else ds
            if p = 'x' ∨ p = 'X' then digitsOf u 16 rest
            else if p = 'o' ∨ p = 'O' then digitsOf u 8 rest
            else if p = 'b' ∨ p = 'B' then digitsOf u 2 rest
            else if digitsOf u 10 (c :: cs) = some 0 then some 0 else none
      else digitsOf u 10 (c :: cs)

/-- `int(text, 0)`, `none` where it raises `ValueError`. -/
def intLiteral (u : UnicodeData) (s : String) : Option Int :=
  match (strip s).toList with
  | '-' :: cs => (magnitudeOf u cs).map fun n => -(n : Int)
  | '+' :: cs => (magnitudeOf u cs).map fun n => (n : Int)
  | cs => (magnitudeOf u cs).map fun n => (n : Int)

end TimeCapsule.Lib

import TimeCapsule.Lib.CodePoint

/-!
# JSON texts

The grammar of JSON as a relation between byte strings and what they stand for, with the bytes in
UTF-8.  Objects keep their members in order, each with the text of its value.
-/

namespace TimeCapsule.Lib.JsonText

/-! ## Bytes -/

abbrev quote : UInt8 := 0x22
abbrev backslash : UInt8 := 0x5c
abbrev comma : UInt8 := 0x2c
abbrev colon : UInt8 := 0x3a
abbrev openBrace : UInt8 := 0x7b
abbrev closeBrace : UInt8 := 0x7d
abbrev openBracket : UInt8 := 0x5b
abbrev closeBracket : UInt8 := 0x5d

def isSpace (c : UInt8) : Bool := c == 0x20 || c == 0x09 || c == 0x0d || c == 0x0a

def isDigit (c : UInt8) : Bool := 0x30 ≤ c && c ≤ 0x39

/-- White space. -/
def Blank (text : Bytes) : Prop := ∀ c ∈ text, isSpace c = true

/-! ## Strings -/

/-- `c` is a hexadecimal digit for `v`. -/
def HexDigit (v : Nat) (c : UInt8) : Prop :=
  v < 10 ∧ c.toNat = 0x30 + v ∨
    10 ≤ v ∧ v < 16 ∧ (c.toNat = 0x61 + (v - 10) ∨ c.toNat = 0x41 + (v - 10))

/-- So many hexadecimal digits, that put their value behind a number. -/
inductive HexDigits : (count init : Nat) → Nat → Bytes → Prop
  | nil (v : Nat) : HexDigits 0 v v []
  | cons {count init d v : Nat} {c : UInt8} {text : Bytes} (hd : HexDigit d c)
      (h : HexDigits count (init * 16 + d) v text) : HexDigits (count + 1) init v (c :: text)

/-- The characters behind a backslash that stand for one code point. -/
def escapes : List (UInt8 × Nat) :=
  [(quote, 0x22), (backslash, 0x5c), (0x2f, 0x2f), (0x62, 8), (0x66, 12), (0x6e, 10), (0x72, 13),
    (0x74, 9)]

/-- A code point that stands for itself, is escaped, or has one escaped UTF-16 unit. -/
inductive SingleChar : Nat → Bytes → Prop
  | plain (c : Char) (hc : 0x20 ≤ c.val.toNat) (hq : c.val.toNat ≠ 0x22) (hb : c.val.toNat ≠ 0x5c) :
      SingleChar c.val.toNat (String.utf8EncodeChar c)
  | escape {c : UInt8} {v : Nat} (h : (c, v) ∈ escapes) : SingleChar v [backslash, c]
  | unit {v : Nat} {text : Bytes} (h : HexDigits 4 0 v text) (hv : v < 0xd800 ∨ 0xdfff < v) :
      SingleChar v (backslash :: 0x75 :: text)

/-- Two escaped units, a high and a low surrogate. -/
def SurrogatePair (hi lo : Nat) (text : Bytes) : Prop :=
  ∃ high low, HexDigits 4 0 hi high ∧ HexDigits 4 0 lo low ∧ (0xd800 ≤ hi ∧ hi ≤ 0xdbff) ∧
    (0xdc00 ≤ lo ∧ lo ≤ 0xdfff) ∧
    text = backslash :: 0x75 :: (high ++ backslash :: 0x75 :: low)

/-- A character of a string, as its code point. -/
def StringChar (code : Nat) (text : Bytes) : Prop :=
  SingleChar code text ∨
    ∃ hi lo, SurrogatePair hi lo text ∧ code = 0x10000 + (hi - 0xd800) * 1024 + (lo - 0xdc00)

inductive StringBody : List Nat → Bytes → Prop
  | nil : StringBody [] []
  | cons {code : Nat} {codes : List Nat} {text rest : Bytes} (hc : StringChar code text)
      (h : StringBody codes rest) : StringBody (code :: codes) (text ++ rest)

def StringText (codes : List Nat) (text : Bytes) : Prop :=
  ∃ body, StringBody codes body ∧ text = quote :: (body ++ [quote])

/-! ## Numbers -/

def Digits (text : Bytes) : Prop := text ≠ [] ∧ ∀ c ∈ text, isDigit c = true

def Sign (text : Bytes) : Prop := text = [] ∨ text = [0x2d]

/-- No zero is in front of other digits. -/
def Integer (text : Bytes) : Prop := text = [0x30] ∨ Digits text ∧ text.head? ≠ some 0x30

def Fraction (text : Bytes) : Prop := text = [] ∨ ∃ digits, Digits digits ∧ text = 0x2e :: digits

def Exponent (text : Bytes) : Prop :=
  text = [] ∨ ∃ e sign digits, (e = 0x65 ∨ e = 0x45) ∧ (sign = [] ∨ sign = [0x2b] ∨ sign = [0x2d]) ∧
    Digits digits ∧ text = e :: (sign ++ digits)

def NumberText (text : Bytes) : Prop :=
  ∃ sign int frac exp, Sign sign ∧ Integer int ∧ Fraction frac ∧ Exponent exp ∧
    text = sign ++ (int ++ (frac ++ exp))

/-! ## Values -/

/-- One item or more, with white space around each and commas between them. -/
inductive Separated {α : Type} (E : α → Bytes → Prop) : List α → Bytes → Prop
  | one {a : α} {before text after : Bytes} (hb : Blank before) (h : E a text) (ha : Blank after) :
      Separated E [a] (before ++ (text ++ after))
  | more {a : α} {items : List α} {before text after rest : Bytes} (hb : Blank before)
      (h : E a text) (ha : Blank after) (hrest : Separated E items rest) :
      Separated E (a :: items) (before ++ (text ++ (after ++ comma :: rest)))

def Listed {α : Type} (E : α → Bytes → Prop) (items : List α) (text : Bytes) : Prop :=
  items = [] ∧ Blank text ∨ Separated E items text

/-- A member is its key and the text of its value, which may depend on the key. -/
def MemberText (V : List Nat → Bytes → Prop) (member : List Nat × Bytes) (text : Bytes) : Prop :=
  ∃ key before after, StringText member.1 key ∧ Blank before ∧ Blank after ∧ V member.1 member.2 ∧
    text = key ++ (before ++ colon :: (after ++ member.2))

def ArrayText (V : Bytes → Prop) (text : Bytes) : Prop :=
  ∃ items inner, Listed (fun item t => t = item ∧ V item) items inner ∧
    text = openBracket :: (inner ++ [closeBracket])

def ObjectText (V : List Nat → Bytes → Prop) (members : List (List Nat × Bytes)) (text : Bytes) :
    Prop :=
  ∃ inner, Listed (MemberText V) members inner ∧ text = openBrace :: (inner ++ [closeBrace])

def literals : List Bytes := [ascii "true", ascii "false", ascii "null"]

/-- A value with values nested inside of each other up to this number, itself included. -/
def ValueText : (levels : Nat) → Bytes → Prop
  | 0, _ => False
  | levels + 1, text =>
      (∃ codes, StringText codes text) ∨ ArrayText (ValueText levels) text ∨
        (∃ members, ObjectText (fun _ => ValueText levels) members text) ∨ text ∈ literals ∨
        NumberText text

end TimeCapsule.Lib.JsonText
